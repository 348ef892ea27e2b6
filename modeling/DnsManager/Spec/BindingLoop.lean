import DnsManager.Worker.Apply

/-!
# Writing one key on every binding

The loops over the bindings in `apply_one_item` and `rollback_items` both give one key one
value on every active binding of a zone, with one provider call a binding.

## Key results
- `loopBody_applyToBinding`, `loopBody_rollbackOnBinding`: what the loop bodies do.
- `run_forM_writesTo`: a loop of writes gets through, exactly when all bindings are usable
  and all calls succeed, or stops at a binding after having written on those before it.
-/

namespace DnsManager

open Prog (liftExcept)

/-- A write to one key of the provider zone behind a binding. -/
abbrev ContentsWrite := Write String RecordKey ProviderRecord

namespace AppliedItemCtx

/-- The key that applying the item writes on every binding, with its new value. -/
def write (ctx : AppliedItemCtx) : Option (RecordKey × Option ProviderRecord) :=
  match ctx.operation with
  | "create" | "update" => ctx.afterRecord.map fun r => (r.key, some r)
  | "delete" => ctx.beforeRecord.map fun r => (r.key, none)
  | _ => none

/-- The key that rolling the item back writes on every binding, with its new value. -/
def undo (ctx : AppliedItemCtx) : Option (RecordKey × Option ProviderRecord) :=
  match ctx.operation with
  | "create" => ctx.afterRecord.map fun r => (r.key, none)
  | "update" | "delete" => ctx.beforeRecord.map fun r => (r.key, some r)
  | _ => none

end AppliedItemCtx

/-! ## Commands -/

@[simp] theorem run_issue {ε : Type} (env : Env) (c : Cmd) (w : World) :
    @Prog.run Cmd Cmd.Reply ε World (no_index c.Reply) (handle env) (issue c) w =
      (.ok (handle env c w).1, (handle env c w).2) := rfl

/-- A query whose statement does not fail. -/
theorem World.query_of_none {α : Type} {env : Env} {w : World} {answer : Database → α}
    (h : env.queries w.queries = none) :
    w.query env answer = (.ok (answer w.db), { w with queries := w.queries + 1 }) := by
  simp only [World.query, h]

/-- A query whose statement fails. -/
theorem World.query_of_some {α : Type} {env : Env} {w : World} {answer : Database → α}
    {e : DbError} (h : env.queries w.queries = some e) :
    w.query env answer = (.error e, { w with queries := w.queries + 1 }) := by
  simp only [World.query, h]

/-- What a query returns comes from the database. -/
theorem World.query_eq_ok {α : Type} {env : Env} {w : World} {answer : Database → α} {a : α}
    (h : (w.query env answer).1 = .ok a) : a = answer w.db := by
  unfold query at h
  split at h
  · cases h
  · cases h; rfl

/-- A query leaves the database as it is. -/
@[simp] theorem World.db_query {α : Type} (env : Env) (w : World) (answer : Database → α) :
    (w.query env answer).2.db = w.db := by
  unfold query
  split <;> rfl

/-- A provider call leaves the database as it is. -/
@[simp] theorem World.db_call (env : Env) (w : World) (b : ProviderBinding) (key : RecordKey)
    (value : Option ProviderRecord) : (w.call env b key value).2.db = w.db := by
  unfold call
  split <;> rfl

/-- A query leaves every provider as it is. -/
@[simp] theorem World.contents_query {α : Type} (env : Env) (w : World) (answer : Database → α) :
    (w.query env answer).2.contents = w.contents := by
  unfold query
  split <;> rfl

/-- A provider call changes no other key than its own, whether it is refused, lost or answered. -/
theorem World.contents_call_of_ne (env : Env) (w : World) {b : ProviderBinding} {key : RecordKey}
    {b' : String} {key' : RecordKey} (hne : (b.id, key) ≠ (b', key'))
    (value : Option ProviderRecord) :
    (w.call env b key value).2.contents b' key' = w.contents b' key' := by
  have hexec : (Write.mk b.id key value).exec w.contents b' key' = w.contents b' key' :=
    Write.exec_of_not_hits (fun hit => hne (Prod.ext hit.1 hit.2)) _
  unfold call
  split
  · exact hexec
  · rfl
  · exact hexec

/-- The two `UPDATE`s of the status are all that a command may do to the database. -/
theorem handle_db (env : Env) (c : Cmd) (w : World) :
    (handle env c w).2.db = w.db ∨ ∃ id guard status now,
      (handle env c w).2.db = w.db.setStatus id guard status now := by
  cases c with
  | instant => exact Or.inl rfl
  | updateStatus id source target =>
    simp only [handle, updateStatusWhere]
    split
    · exact Or.inl rfl
    · split
      · exact Or.inr ⟨_, _, _, _, rfl⟩
      · exact Or.inl rfl
  | txUpdate id target snapshot =>
    simp only [handle, updateStatusTx]
    split
    · exact Or.inl rfl
    · split
      · exact Or.inr ⟨_, _, _, _, rfl⟩
      · exact Or.inl rfl
  | upsertRecord | deleteRecord => exact Or.inl (World.db_call ..)
  | _ => exact Or.inl (World.db_query ..)

/-- The world after the key was written on some bindings, one call each. -/
def World.wrote (w : World) (bs : List ProviderBinding) (key : RecordKey)
    (value : Option ProviderRecord) : World :=
  { w with
    contents := Write.execAll (Write.broadcast (bs.map (·.id)) key value) w.contents
    calls := w.calls + bs.length }

@[simp] theorem World.wrote_nil (w : World) (key : RecordKey) (value : Option ProviderRecord) :
    w.wrote [] key value = w := rfl

theorem World.wrote_cons (w : World) (b : ProviderBinding) (bs : List ProviderBinding)
    (key : RecordKey) (value : Option ProviderRecord) :
    w.wrote (b :: bs) key value = (w.wrote [b] key value).wrote bs key value := by
  simp only [wrote, List.length_cons, List.length_nil]
  congr 1
  omega

/-- A provider call that succeeds. -/
theorem World.call_of_ok {env : Env} {w : World} (h : env.calls w.calls = .ok)
    (b : ProviderBinding) (key : RecordKey) (value : Option ProviderRecord) :
    w.call env b key value = (.ok (), w.wrote [b] key value) := by
  simp only [call, h]
  rfl

/-- A provider call that is reported as failed. -/
theorem World.call_of_ne_ok {env : Env} {w : World} (h : env.calls w.calls ≠ .ok)
    (b : ProviderBinding) (key : RecordKey) (value : Option ProviderRecord) :
    ∃ e, (w.call env b key value).1 = .error e := by
  unfold call
  split
  · next hc => exact absurd hc h
  · exact ⟨_, rfl⟩
  · exact ⟨_, rfl⟩

variable [CryptoLib] [SerdeJson] (worker : ReconcileWorker)

/-! ## Writing on one binding -/

/-- The worker has an adapter for the binding and can decrypt its credentials. -/
def ReconcileWorker.Usable (b : ProviderBinding) : Prop :=
  b.providerType ∈ worker.adapters ∧
    (worker.decryptCredentials b.credentialsBlob b.credentialsDek).isOk = true

instance (b : ProviderBinding) : Decidable (worker.Usable b) :=
  inferInstanceAs (Decidable (_ ∧ _))

/-- The provider call that gives the key its value on the binding. -/
def writeCall {ε : Type} (b : ProviderBinding) (creds : Credentials) (key : RecordKey) :
    Option ProviderRecord → Prog Cmd Cmd.Reply ε (Except ProviderError Unit)
  | some record => issue (.upsertRecord b creds record)
  | none => issue (.deleteRecord b creds key)

/-- What a loop body over the bindings does on `b`: it stops because `b` is not usable; or, when
    there is nothing to write, it ends with one of the results in `otherwise`; or it makes the
    provider call for `write`. -/
inductive LoopBody (b : ProviderBinding) (write : Option (RecordKey × Option ProviderRecord))
    (otherwise : Except String Unit → Prop) (p : WorkerM Unit) : Prop
  | unusable (e : String) (hu : ¬ worker.Usable b) (hp : p = .throw e)
  | nothing (x : Except String Unit) (hu : worker.Usable b) (hw : write = none)
      (hx : otherwise x) (hp : p = liftExcept x)
  | call {key : RecordKey} {value : Option ProviderRecord} (creds : Credentials)
      (text : ProviderError → String) (hu : worker.Usable b) (hw : write = some (key, value))
      (hkey : ∀ record, value = some record → record.key = key)
      (hp : p = writeCall b creds key value >>= fun r => liftExcept (r.mapError text))

/-- The start both loop bodies share: look up the adapter and decrypt the credentials. -/
private theorem loopBody_checked {b : ProviderBinding} {msg : String}
    {k : Credentials → WorkerM Unit} {write : Option (RecordKey × Option ProviderRecord)}
    {otherwise : Except String Unit → Prop}
    (hk : worker.Usable b → ∀ creds, LoopBody worker b write otherwise (k creds)) :
    LoopBody worker b write otherwise
      (if b.providerType ∉ worker.adapters then .throw msg
        else liftExcept (worker.decryptCredentials b.credentialsBlob b.credentialsDek) >>= k) := by
  by_cases ha : b.providerType ∈ worker.adapters
  · rw [if_neg (not_not_intro ha)]
    have husable : worker.Usable b ↔
        (worker.decryptCredentials b.credentialsBlob b.credentialsDek).isOk = true :=
      and_iff_right ha
    cases hd : worker.decryptCredentials b.credentialsBlob b.credentialsDek with
    | ok creds => exact hk (husable.mpr (by rw [hd]; rfl)) creds
    | error e =>
      refine .unusable e (fun hu => ?_) rfl
      have hok := husable.mp hu
      rw [hd] at hok
      cases hok
  · rw [if_pos ha]
    exact .unusable msg (fun hu => ha hu.1) rfl

/-- The provider call of an `upsert_record` arm. -/
private theorem LoopBody.upsert {b : ProviderBinding} {record : ProviderRecord}
    {otherwise : Except String Unit → Prop} (creds : Credentials)
    (text : ProviderError → String) (hu : worker.Usable b) :
    LoopBody worker b (some (record.key, some record)) otherwise
      (writeCall b creds record.key (some record) >>= fun r => liftExcept (r.mapError text)) := by
  refine .call creds text hu rfl (fun record' h => ?_) rfl
  cases h
  rfl

/-- The provider call of a `delete_record` arm. -/
private theorem LoopBody.delete {b : ProviderBinding} {key : RecordKey}
    {otherwise : Except String Unit → Prop} (creds : Credentials)
    (text : ProviderError → String) (hu : worker.Usable b) :
    LoopBody worker b (some (key, none)) otherwise
      (writeCall b creds key none >>= fun r => liftExcept (r.mapError text)) := by
  refine .call creds text hu rfl (fun record h => ?_) rfl
  cases h

/-- Applying an item makes the call for its write; without a write it stops. -/
theorem loopBody_applyToBinding (ctx : AppliedItemCtx) (b : ProviderBinding) :
    LoopBody worker b ctx.write (· ≠ .ok ())
      (worker.applyToBinding ctx.operation ctx.beforeRecord ctx.afterRecord b) := by
  refine loopBody_checked worker fun hu creds => ?_
  -- the arms without a record to write report an error
  have stops : ∀ e : String, LoopBody worker b none (· ≠ .ok ()) (liftExcept (.error e)) :=
    fun e => .nothing (.error e) hu rfl (by simp) rfl
  by_cases hcreate : ctx.operation = "create"
  · simp only [AppliedItemCtx.write, hcreate]
    cases ctx.afterRecord with
    | none => exact stops _
    | some record => exact .upsert worker creds _ hu
  by_cases hupdate : ctx.operation = "update"
  · simp only [AppliedItemCtx.write, hupdate]
    cases ctx.afterRecord with
    | none => exact stops _
    | some record => exact .upsert worker creds _ hu
  by_cases hdelete : ctx.operation = "delete"
  · simp only [AppliedItemCtx.write, hdelete]
    cases ctx.beforeRecord with
    | none => exact stops _
    | some record => exact .delete worker creds _ hu
  -- `unknown operation`
  simp only [AppliedItemCtx.write]
  exact stops _

/-- Rolling an item back makes the call for its inverse; without an inverse it does nothing,
    and reports no error either. -/
theorem loopBody_rollbackOnBinding (ctx : AppliedItemCtx) (b : ProviderBinding) :
    LoopBody worker b ctx.undo (· = .ok ()) (worker.rollbackOnBinding ctx b) := by
  refine loopBody_checked worker fun hu creds => ?_
  have nothing : LoopBody worker b none (· = .ok ()) (pure ()) := .nothing _ hu rfl rfl rfl
  by_cases hcreate : ctx.operation = "create"
  · simp only [AppliedItemCtx.undo, hcreate]
    cases ctx.afterRecord with
    | none => exact nothing
    | some record => exact .delete worker creds _ hu
  by_cases hupdate : ctx.operation = "update"
  · simp only [AppliedItemCtx.undo, hupdate]
    cases ctx.beforeRecord with
    | none => exact nothing
    | some record => exact .upsert worker creds _ hu
  by_cases hdelete : ctx.operation = "delete"
  · simp only [AppliedItemCtx.undo, hdelete]
    cases ctx.beforeRecord with
    | none => exact nothing
    | some record => exact .upsert worker creds _ hu
  -- `_ => {}`
  simp only [AppliedItemCtx.undo]
  exact nothing

/-- `p` makes one provider call, which gives the key its value on the binding, provided the
    binding is usable; otherwise it stops without a call. -/
def WritesTo (b : ProviderBinding) (key : RecordKey) (value : Option ProviderRecord)
    (p : WorkerM Unit) : Prop :=
  ∀ env w, if worker.Usable b then
      ∃ text : ProviderError → String, p.run (handle env) w =
        ((w.call env b key value).1.mapError text, (w.call env b key value).2)
    else ∃ e, p.run (handle env) w = (.error e, w)

/-- A loop body with something to write writes it. -/
theorem LoopBody.writesTo {b : ProviderBinding} {key : RecordKey} {value : Option ProviderRecord}
    {otherwise : Except String Unit → Prop} {p : WorkerM Unit}
    (h : LoopBody worker b (some (key, value)) otherwise p) : WritesTo worker b key value p := by
  intro env w
  cases h with
  | unusable e hu hp =>
    rw [if_neg hu, hp]
    exact ⟨e, rfl⟩
  | nothing x hu hw => cases hw
  | call creds text hu hw hkey hp =>
    cases hw
    rw [if_pos hu, hp]
    refine ⟨text, ?_⟩
    cases value with
    | none => simp only [writeCall, Prog.run_bind, run_issue, handle, Prog.run_liftExcept]
    | some record =>
      simp only [writeCall, Prog.run_bind, run_issue, handle, Prog.run_liftExcept, hkey record rfl]

/-- Applying an item with a write performs it. -/
theorem writesTo_applyToBinding {ctx : AppliedItemCtx} {key : RecordKey}
    {value : Option ProviderRecord} (hw : ctx.write = some (key, value)) (b : ProviderBinding) :
    WritesTo worker b key value
      (worker.applyToBinding ctx.operation ctx.beforeRecord ctx.afterRecord b) := by
  have hbody := loopBody_applyToBinding worker ctx b
  rw [hw] at hbody
  exact hbody.writesTo worker

/-- Rolling an item back performs its inverse write. -/
theorem writesTo_rollbackOnBinding {ctx : AppliedItemCtx} {key : RecordKey}
    {value : Option ProviderRecord} (hw : ctx.undo = some (key, value)) (b : ProviderBinding) :
    WritesTo worker b key value (worker.rollbackOnBinding ctx b) := by
  have hbody := loopBody_rollbackOnBinding worker ctx b
  rw [hw] at hbody
  exact hbody.writesTo worker

/-- A loop body with nothing to write makes no call. -/
theorem LoopBody.run_of_none {b : ProviderBinding} {otherwise : Except String Unit → Prop}
    {p : WorkerM Unit} (h : LoopBody worker b none otherwise p) (env : Env) (w : World) :
    ∃ x, p.run (handle env) w = (x, w) ∧ if worker.Usable b then otherwise x else x ≠ .ok () := by
  cases h with
  | unusable e hu hp => exact ⟨.error e, by rw [hp]; rfl, by rw [if_neg hu]; exact nofun⟩
  | nothing x hu hw hx hp => exact ⟨x, by rw [hp, Prog.run_liftExcept], by rwa [if_pos hu]⟩
  | call creds text hu hw => cases hw

/-- Applying an item without a write stops before any provider call. -/
theorem run_applyToBinding_of_write_none {ctx : AppliedItemCtx} (hw : ctx.write = none)
    (b : ProviderBinding) (env : Env) (w : World) :
    ∃ e, (worker.applyToBinding ctx.operation ctx.beforeRecord ctx.afterRecord b).run
      (handle env) w = (.error e, w) := by
  have hbody := loopBody_applyToBinding worker ctx b
  rw [hw] at hbody
  obtain ⟨x, hrun, hx⟩ := hbody.run_of_none worker env w
  rw [ite_self] at hx
  cases x with
  | error e => exact ⟨e, hrun⟩
  | ok _ => exact absurd rfl hx

/-- Rolling an item back that has no inverse write only asks for a usable binding. -/
theorem run_rollbackOnBinding_of_undo_none {ctx : AppliedItemCtx} (hw : ctx.undo = none)
    (b : ProviderBinding) (env : Env) (w : World) :
    if worker.Usable b then (worker.rollbackOnBinding ctx b).run (handle env) w = (.ok (), w)
    else ∃ e, (worker.rollbackOnBinding ctx b).run (handle env) w = (.error e, w) := by
  have hbody := loopBody_rollbackOnBinding worker ctx b
  rw [hw] at hbody
  obtain ⟨x, hrun, hx⟩ := hbody.run_of_none worker env w
  split at hx
  · next hu => rw [if_pos hu, hrun, hx]
  · next hu =>
    rw [if_neg hu]
    cases x with
    | error e => exact ⟨e, hrun⟩
    | ok _ => exact absurd rfl hx

/-! ## Writing on all bindings -/

/-- All the bindings are usable, and the calls on them succeed when the first has the
    number `n`. -/
def AllWritten (env : Env) : (n : Nat) → List ProviderBinding → Prop
  | _, [] => True
  | n, b :: bs => worker.Usable b ∧ env.calls n = .ok ∧ AllWritten env (n + 1) bs

theorem allWritten_iff {env : Env} {n : Nat} {bs : List ProviderBinding} :
    AllWritten worker env n bs ↔
      (∀ b ∈ bs, worker.Usable b) ∧ ∀ i < bs.length, env.calls (n + i) = .ok := by
  induction bs generalizing n with
  | nil => simp [AllWritten]
  | cons b bs ih =>
    simp only [AllWritten, ih, List.mem_cons, forall_eq_or_imp, List.length_cons]
    constructor
    · rintro ⟨hu, hc, hus, hcs⟩
      refine ⟨⟨hu, hus⟩, fun i hi => ?_⟩
      cases i with
      | zero => exact hc
      | succ i => rw [← hcs i (by omega)]; congr 1; omega
    · rintro ⟨⟨hu, hus⟩, hcs⟩
      refine ⟨hu, hcs 0 (by omega), hus, fun i hi => ?_⟩
      rw [← hcs (i + 1) (by omega)]; congr 1; omega

/-- The first call that fails, or the first binding that is not usable, comes after the
    bindings `done`. -/
structure StopsAfter (env : Env) (n : Nat) (bs done : List ProviderBinding)
    (b : ProviderBinding) : Prop where
  isPrefix : done ++ [b] <+: bs
  written : AllWritten worker env n done
  stop : ¬ worker.Usable b ∨ env.calls (n + done.length) ≠ .ok

/-- The world in which a loop over bindings stops. -/
def World.stopped (env : Env) (w : World) (done : List ProviderBinding) (b : ProviderBinding)
    (key : RecordKey) (value : Option ProviderRecord) : World :=
  if worker.Usable b then ((w.wrote done key value).call env b key value).2
  else w.wrote done key value

/-- A list of bindings on which the loop stops is not written completely. -/
theorem StopsAfter.not_allWritten {env : Env} {n : Nat} {bs done : List ProviderBinding}
    {b : ProviderBinding} (h : StopsAfter worker env n bs done b) :
    ¬ AllWritten worker env n bs := by
  rw [allWritten_iff]
  rintro ⟨hu, hc⟩
  rcases h.stop with hs | hs
  · exact hs (hu b (h.isPrefix.subset (by simp)))
  · have := h.isPrefix.length_le
    simp only [List.length_append, List.length_singleton] at this
    exact hs (hc _ (by omega))

/-- A loop of writes on bindings either gets through, or stops at a binding after having
    written on those before it. -/
theorem run_forM_writesTo {key : RecordKey} {value : Option ProviderRecord}
    {f : ProviderBinding → WorkerM Unit} (hf : ∀ b, WritesTo worker b key value (f b))
    (bs : List ProviderBinding) (env : Env) (w : World) :
    (AllWritten worker env w.calls bs ∧
      (forM bs f).run (handle env) w = (.ok (), w.wrote bs key value)) ∨
    ∃ done b e, StopsAfter worker env w.calls bs done b ∧
      (forM bs f).run (handle env) w = (.error e, w.stopped worker env done b key value) := by
  induction bs generalizing w with
  | nil => exact Or.inl ⟨trivial, rfl⟩
  | cons b bs ih =>
    have hb := hf b env w
    simp only [List.forM_cons, Prog.run_bind]
    by_cases hu : worker.Usable b
    · rw [if_pos hu] at hb
      obtain ⟨text, hb⟩ := hb
      by_cases hc : env.calls w.calls = .ok
      · -- the call on `b` succeeds: what happens on `bs` decides
        rw [World.call_of_ok hc] at hb
        simp only [hb, Except.mapError]
        rcases ih (w.wrote [b] key value) with ⟨hall, hrun⟩ | ⟨done, b', e, hs, hrun⟩
        · refine Or.inl ⟨⟨hu, hc, hall⟩, ?_⟩
          rw [hrun, ← World.wrote_cons]
        · refine Or.inr ⟨b :: done, b', e, ⟨?_, ⟨hu, hc, hs.written⟩, ?_⟩, ?_⟩
          · exact List.cons_prefix_cons.mpr ⟨rfl, hs.isPrefix⟩
          · refine hs.stop.imp_right fun h => ?_
            simp only [World.wrote, List.length_singleton] at h
            rwa [List.length_cons, Nat.add_comm done.length, ← Nat.add_assoc]
          · simp only [hrun, World.stopped, World.wrote_cons w b done]
      · obtain ⟨e, he⟩ := World.call_of_ne_ok hc b key value
        -- the loop stops here, before it has written on any binding
        refine Or.inr ⟨[], b, text e, ⟨by simp, trivial, Or.inr hc⟩, ?_⟩
        simp only [hb, he, Except.mapError, World.stopped, if_pos hu, World.wrote_nil]
    · rw [if_neg hu] at hb
      obtain ⟨e, hb⟩ := hb
      refine Or.inr ⟨[], b, e, ⟨by simp, trivial, Or.inl hu⟩, ?_⟩
      simp only [hb, World.stopped, if_neg hu, World.wrote_nil]

end DnsManager

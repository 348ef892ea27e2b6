import DnsManager.Spec.Footprint
import DnsManager.Spec.Lifecycle
import DnsManager.Worker.Run

/-!
# Where the writes of an apply loop come from

The log of an apply loop tells which change set it holds: the one whose status it has moved
last. While it holds one, every provider call it makes is the write of an item that it was
shown of that change set, on a binding that it was shown of the item's zone; and it moves
no status but that of the change set it holds.

## Key results
- `obeys_runApplyLoop_origin`: `OriginAllows` holds of every command of the loop.
- `only_runApplyLoop_credentials`: every call is made with the decrypted credentials of its binding.
-/

namespace DnsManager

open Prog (Obeys Only liftExcept)

/-! ## The change set a log holds -/

/-- The change set a thread holds, with the status it has given it. -/
abbrev Hold := Option (String × ChangeSetStatus)

/-- What a thread holds after a command: an `UPDATE` that has affected a row takes hold of it. -/
def Hold.next (hold : Hold) : (c : Cmd) → c.Reply → Hold
  | .updateStatus id _ target, .ok (_ + 1) => some (id, target)
  | _, _ => hold

/-- What a thread holds after its commands so far. -/
def Log.hold (log : Log) : Hold := log.foldl (fun hold e => hold.next e.1 e.2) none

theorem Log.hold_concat (log : Log) (e : Sigma Cmd.Reply) :
    Log.hold (log ++ [e]) = (Log.hold log).next e.1 e.2 := by
  simp only [hold, List.foldl_append, List.foldl_cons, List.foldl_nil]

/-- No other command changes what is held. -/
theorem Hold.next_of_ne {c : Cmd} (hc : ∀ id s t, c ≠ .updateStatus id s t) (hold : Hold)
    (r : c.Reply) : hold.next c r = hold := by
  cases c with
  | updateStatus id s t => exact absurd rfl (hc id s t)
  | _ => rfl

section Worker

variable [SerdeJson]

/-- The log shows the item: it is one of the change set, it was parsed, and its zone was found. -/
def ItemShown (log : Log) (id : String) (ctx : AppliedItemCtx) : Prop :=
  ∃ items item, ⟨.selectItems id, .ok items⟩ ∈ log ∧ item ∈ items ∧ ctx.ComesFrom item ∧
    ⟨.selectZone item.recordId, .ok (some ctx.zoneId)⟩ ∈ log

/-- A call that gives a key of the binding a value is the write of an item that was shown, or of
    its inverse, by the status of the change set that is held. -/
def WriteShown (log : Log) (b : ProviderBinding) (key : RecordKey)
    (value : Option ProviderRecord) : Prop :=
  ∃ id ctx bs, ItemShown log id ctx ∧ ⟨.selectActiveBindings ctx.zoneId, .ok bs⟩ ∈ log ∧ b ∈ bs ∧
    (Log.hold log = some (id, .applying) ∧ ctx.write = some (key, value) ∨
      Log.hold log = some (id, .rollingBack) ∧ ctx.undo = some (key, value))

/-- What an apply loop may issue. -/
def OriginAllows (log : Log) : Cmd → Prop
  | .updateStatus id source target => source.canTransitionTo target = true ∧
      (source = .validated ∨ Log.hold log = some (id, source))
  | .txUpdate .. => False
  | .upsertRecord b _ record => WriteShown log b record.key (some record)
  | .deleteRecord b _ key => WriteShown log b key none
  | _ => True

/-- The recorder of an apply loop. -/
abbrev origin : Prog.Monitor Cmd Cmd.Reply := Prog.recorder OriginAllows

/-- The log so far extends `log`, and holds the change set in the status. -/
structure Working (id : String) (status : ChangeSetStatus) (log log' : Log) : Prop where
  extends_ : log <+: log'
  holds : Log.hold log' = some (id, status)

namespace Working

variable {id : String} {status : ChangeSetStatus} {log log' log'' : Log}

omit [SerdeJson]

theorem refl (h : Working id status log log') : Working id status log' log' :=
  ⟨List.prefix_rfl, h.holds⟩

theorem trans (h : Working id status log log') (h' : Working id status log' log'') :
    Working id status log log'' := ⟨h.extends_.trans h'.extends_, h'.holds⟩

theorem concat (h : Working id status log log') {c : Cmd}
    (hc : ∀ id s t, c ≠ .updateStatus id s t) (r : c.Reply) :
    Working id status log (log' ++ [⟨c, r⟩]) := by
  refine ⟨h.extends_.trans (List.prefix_append _ _), ?_⟩
  rw [Log.hold_concat, Hold.next_of_ne hc]
  exact h.holds

end Working

theorem ItemShown.mono {log log' : Log} {id : String} {ctx : AppliedItemCtx}
    (h : ItemShown log id ctx) (hlog : log <+: log') : ItemShown log' id ctx := by
  obtain ⟨items, item, hitems, hmem, hfrom, hzone⟩ := h
  exact ⟨items, item, hlog.subset hitems, hmem, hfrom, hlog.subset hzone⟩

/-! ## The programs keep to it -/

variable {id : String} {log log' : Log}

/-- The call for a write that was shown. -/
private theorem obeys_writeCall_origin {status : ChangeSetStatus} (h : Working id status log log')
    {b : ProviderBinding} {creds : Credentials} {key : RecordKey} {value : Option ProviderRecord}
    (hkey : ∀ record, value = some record → record.key = key)
    (hshown : WriteShown log' b key value) (text : ProviderError → String) :
    Obeys origin (writeCall b creds key value >>= fun r => liftExcept (r.mapError text)) log'
      fun _ log'' => Working id status log' log'' := by
  cases value with
  | none =>
    exact Obeys.perform_bind hshown fun r =>
      Obeys.liftExcept (h.refl.concat (c := .deleteRecord b creds key) nofun r)
  | some record =>
    have hallowed : OriginAllows log' (.upsertRecord b creds record) := by
      obtain rfl := hkey record rfl
      exact hshown
    exact Obeys.perform_bind hallowed fun r =>
      Obeys.liftExcept (h.refl.concat (c := .upsertRecord b creds record) nofun r)

variable [CryptoLib] (worker : ReconcileWorker)

/-- A loop body over the bindings makes the call for the write, or none. -/
theorem LoopBody.obeys_origin {b : ProviderBinding}
    {write : Option (RecordKey × Option ProviderRecord)} {otherwise : Except String Unit → Prop}
    {p : WorkerM Unit} (hp : LoopBody worker b write otherwise p) {status : ChangeSetStatus}
    (h : Working id status log log')
    (hshown : ∀ key value, write = some (key, value) → WriteShown log' b key value) :
    Obeys origin p log' fun _ log'' => Working id status log' log'' := by
  cases hp with
  | unusable e hu hp =>
    rw [hp]
    exact h.refl
  | nothing x hu hw hx hp =>
    rw [hp]
    exact Obeys.liftExcept h.refl
  | @call key value creds text hu hw hkey hp =>
    rw [hp]
    exact obeys_writeCall_origin h hkey (hshown key value hw) text

/-- An item that goes through was shown. -/
theorem obeys_applyOneItem_origin (h : Working id .applying log log') {items : List ChangesetItem}
    (hread : ⟨.selectItems id, .ok items⟩ ∈ log') {item : ChangesetItem} (hitem : item ∈ items) :
    Obeys origin (worker.applyOneItem item) log' fun x log'' =>
      Working id .applying log' log'' ∧ ∀ ctx, x = .ok ctx → ItemShown log'' id ctx := by
  unfold ReconcileWorker.applyOneItem
  refine Obeys.perform_bind trivial fun r => ?_
  have h₁ := h.refl.concat (c := .selectZone item.recordId) nofun r
  refine Obeys.liftExcept_bind (fun row hrow => ?_) fun _ _ => ⟨h₁, nofun⟩
  refine Obeys.liftExcept_bind (fun zoneId hzone => ?_) fun _ _ => ⟨h₁, nofun⟩
  refine Obeys.liftExcept_bind (fun after hafter => ?_) fun _ _ => ⟨h₁, nofun⟩
  refine Obeys.liftExcept_bind (fun before hbefore => ?_) fun _ _ => ⟨h₁, nofun⟩
  refine Obeys.perform_bind trivial fun r' => ?_
  have h₂ := h₁.concat (c := .selectActiveBindings zoneId) nofun r'
  refine Obeys.liftExcept_bind (fun bs hbs => ?_) fun _ _ => ⟨h₂, nofun⟩
  have hshown : ItemShown ((log' ++ [⟨.selectZone item.recordId, r⟩]) ++
      [⟨.selectActiveBindings zoneId, r'⟩]) id ⟨zoneId, item.operation, before, after⟩ := by
    obtain rfl : row = some zoneId := by
      cases row with
      | none => cases hzone
      | some z => cases hzone; rfl
    subst hrow
    exact ⟨items, item, by simp [hread], hitem, ⟨rfl, hafter, hbefore⟩, by simp⟩
  subst hbs
  split
  · exact ⟨h₂, nofun⟩
  · -- the calls of the loop leave the log with the bindings that were shown
    refine Obeys.bind (Obeys.mono (Obeys.forM (m := origin)
      (fun log'' => Working id .applying ((log' ++ [⟨.selectZone item.recordId, r⟩]) ++
        [⟨.selectActiveBindings zoneId, .ok bs⟩]) log'') h₂.refl fun b hb log₃ h₃ => ?_) ?_)
    · refine ((loopBody_applyToBinding worker ⟨zoneId, item.operation, before, after⟩ b).obeys_origin
        worker h₃ fun key value hw => ?_).mono fun _ _ h₄ => h₃.trans h₄
      exact ⟨id, _, bs, hshown.mono h₃.extends_, h₃.extends_.subset (by simp), hb,
        .inl ⟨h₃.holds, hw⟩⟩
    · rintro x log₃ h₃
      cases x with
      | error e => exact ⟨h₂.trans h₃, nofun⟩
      | ok _ =>
        refine ⟨h₂.trans h₃, fun ctx hctx => ?_⟩
        cases hctx
        exact hshown.mono h₃.extends_

/-- The items that are left for a rollback were shown. -/
theorem obeys_applyItems_origin {all items : List ChangesetItem} (hsub : items ⊆ all)
    {applied : List AppliedItemCtx} (h : Working id .applying log log')
    (hread : ⟨.selectItems id, .ok all⟩ ∈ log') (happlied : ∀ ctx ∈ applied, ItemShown log' id ctx) :
    Obeys origin (worker.applyItems items applied) log' fun x log'' =>
      Working id .applying log' log'' ∧ ∀ ctx ∈ appliedOf x, ItemShown log'' id ctx := by
  induction items generalizing applied log log' with
  | nil => exact ⟨h.refl, happlied⟩
  | cons item items ih =>
    obtain ⟨hitem, hitems⟩ := List.cons_subset.mp hsub
    refine Obeys.bind (Obeys.attempt
      ((obeys_applyOneItem_origin worker h hread hitem).mono fun x log₁ hx => ?_))
    obtain ⟨h₁, hctx⟩ := hx
    have hold : ∀ ctx ∈ applied, ItemShown log₁ id ctx :=
      fun ctx hc => (happlied ctx hc).mono h₁.extends_
    cases x with
    | error e => exact ⟨h₁, hold⟩
    | ok ctx =>
      refine (ih hitems h₁ (h₁.extends_.subset hread) fun c hc => ?_).mono
        fun x log₂ hx => ⟨h₁.trans hx.1, hx.2⟩
      rcases List.mem_append.mp hc with hc | hc
      · exact hold c hc
      · obtain rfl := List.mem_singleton.mp hc
        exact hctx _ rfl

/-- Rolling an item back makes calls for its inverse on the bindings that were shown. -/
theorem obeys_rollbackOneItem_origin (h : Working id .rollingBack log log') {ctx : AppliedItemCtx}
    (hctx : ItemShown log' id ctx) :
    Obeys origin (worker.rollbackOneItem ctx) log' fun _ log'' =>
      Working id .rollingBack log' log'' := by
  unfold ReconcileWorker.rollbackOneItem
  refine Obeys.perform_bind trivial fun r => ?_
  have h₁ := h.refl.concat (c := .selectActiveBindings ctx.zoneId) nofun r
  refine Obeys.liftExcept_bind (fun bs hbs => ?_) fun _ _ => h₁
  subst hbs
  refine Obeys.mono (Obeys.forM (m := origin) (fun log'' => Working id .rollingBack
    (log' ++ [⟨.selectActiveBindings ctx.zoneId, .ok bs⟩]) log'') h₁.refl fun b hb log₂ h₂ => ?_)
    fun _ _ h₂ => h₁.trans h₂
  refine ((loopBody_rollbackOnBinding worker ctx b).obeys_origin worker h₂
    fun key value hu => ?_).mono fun _ _ h₃ => h₂.trans h₃
  exact ⟨id, ctx, bs, hctx.mono (h₁.extends_.trans h₂.extends_), h₂.extends_.subset (by simp), hb,
    .inr ⟨h₂.holds, hu⟩⟩

omit [CryptoLib] in
/-- A status update that goes through holds the change set in its new status. -/
theorem obeys_updateChangesetStatus_origin {source target : ChangeSetStatus}
    (hsource : source = .validated ∨ Log.hold log = some (id, source)) :
    Obeys origin (updateChangesetStatus id source target) log fun x (log' : Log) =>
      x = .ok () → Working id target log log' := by
  unfold updateChangesetStatus
  split
  · exact nofun
  · next hcan =>
    refine Obeys.perform_bind ⟨Bool.of_not_eq_false hcan, hsource⟩ fun r => ?_
    refine Obeys.liftExcept_bind (fun affected hr => ?_) fun _ _ => nofun
    subst hr
    cases affected with
    | zero => exact nofun
    | succ n => exact fun _ => ⟨List.prefix_append _ _, Log.hold_concat ..⟩

omit [CryptoLib] in
private theorem obeys_logged_origin {source target : ChangeSetStatus}
    (h : Log.hold log = some (id, source)) :
    Obeys origin (logged (updateChangesetStatus id source target)) log fun _ _ => True :=
  Obeys.bind (Obeys.attempt
    ((obeys_updateChangesetStatus_origin (.inr h)).mono fun _ _ _ => trivial))

theorem obeys_applyFailed_origin (h : Working id .applying log log') (rollbackPolicy : String)
    (start : Nat) {applied : List AppliedItemCtx} (happlied : ∀ ctx ∈ applied, ItemShown log' id ctx) :
    Obeys origin (worker.applyFailed id rollbackPolicy start applied) log' fun _ _ => True := by
  unfold ReconcileWorker.applyFailed
  refine Obeys.perform_bind trivial fun now => ?_
  have h₁ := h.refl.concat (c := .instant) nofun now
  dsimp only
  split
  · exact obeys_logged_origin h₁.holds
  · refine Obeys.bind (Obeys.attempt ((obeys_updateChangesetStatus_origin (.inr h₁.holds)).mono ?_))
    intro x log₂ hx
    cases x with
    | error e => trivial
    | ok _ =>
      have h₂ := hx rfl
      refine Obeys.bind (Obeys.attempt (Obeys.mono (Obeys.forM (m := origin)
        (fun log₃ => Working id .rollingBack log₂ log₃) h₂.refl fun ctx hctx log₃ h₃ => ?_) ?_))
      · have hshown := (happlied ctx (List.mem_reverse.mp hctx)).mono
          ((h₁.extends_.trans h₂.extends_).trans h₃.extends_)
        exact (obeys_rollbackOneItem_origin worker h₃ hshown).mono fun _ _ h₄ => h₃.trans h₄
      · rintro x log₃ h₃
        cases x with
        | ok _ => exact obeys_logged_origin h₃.holds
        | error e => exact obeys_logged_origin h₃.holds

/-- Whatever was issued before, `apply_single_changeset` writes what it is shown of the change
    set it has claimed. -/
theorem obeys_applySingleChangeset_origin (log : Log) (id rollbackPolicy : String) :
    Obeys origin (worker.applySingleChangeset id rollbackPolicy) log fun _ _ => True := by
  unfold ReconcileWorker.applySingleChangeset
  refine Obeys.perform_bind trivial fun start => ?_
  refine Obeys.bind ((obeys_updateChangesetStatus_origin (.inl rfl)).mono ?_)
  rintro x (log₂ : Log) hx
  cases x with
  | error e => trivial
  | ok _ =>
    have h₂ := hx rfl
    refine Obeys.perform_bind trivial fun r => ?_
    have h₃ := h₂.refl.concat (c := .selectItems id) nofun r
    refine Obeys.liftExcept_bind (fun items hitems => ?_) fun _ _ => trivial
    subst hitems
    have hread : ⟨.selectItems id, .ok items⟩ ∈ log₂ ++ [⟨.selectItems id, .ok items⟩] := by simp
    refine Obeys.bind (Obeys.attempt (Obeys.mono (obeys_applyItems_origin worker
      (List.Subset.refl items) h₃ hread nofun) ?_))
    rintro x (log₄ : Log) ⟨h₄, happlied⟩
    cases x with
    | ok ctxs =>
      exact (obeys_updateChangesetStatus_origin (.inr h₄.holds)).mono fun _ _ _ => trivial
    | error e => exact obeys_applyFailed_origin worker h₄ rollbackPolicy start happlied

/-- The apply loop keeps to it at every tick. -/
theorem obeys_runApplyLoop_origin (ticks : Nat) :
    Obeys origin (worker.runApplyLoop ticks) [] fun _ _ => True := by
  refine Obeys.forM (m := origin) (fun _ => True) trivial fun _ _ log _ => ?_
  refine Obeys.bind (Obeys.attempt ?_)
  unfold ReconcileWorker.processApplyBatch
  refine Obeys.perform_bind trivial fun r => Obeys.liftExcept_bind (fun rows _ => ?_)
    fun _ _ => trivial
  refine Obeys.forM (m := origin) (fun _ => True) trivial fun row _ log' _ => ?_
  refine Obeys.bind (Obeys.attempt ?_)
  exact (obeys_applySingleChangeset_origin worker log' row.id row.rollbackPolicy).mono
    fun _ _ _ => trivial

/-! ## Credentials -/

/-- There is an adapter for the binding, and the credentials are its own. -/
def ReconcileWorker.Authorizes (b : ProviderBinding) (creds : Credentials) : Prop :=
  b.providerType ∈ worker.adapters ∧
    worker.decryptCredentials b.credentialsBlob b.credentialsDek = .ok creds

/-- A provider call of the worker is made with the credentials of its binding. -/
def Cmd.Authorized : Cmd → Prop
  | .upsertRecord b creds _ | .deleteRecord b creds _ => worker.Authorizes b creds
  | _ => True

/-- The start both loop bodies share hands the decrypted credentials on. -/
private theorem only_checked {b : ProviderBinding} {msg : String} {k : Credentials → WorkerM Unit}
    (hk : ∀ creds, b.providerType ∈ worker.adapters →
      worker.decryptCredentials b.credentialsBlob b.credentialsDek = .ok creds →
      Only (Cmd.Authorized worker) (k creds)) :
    Only (Cmd.Authorized worker) (if b.providerType ∉ worker.adapters then .throw msg
      else liftExcept (worker.decryptCredentials b.credentialsBlob b.credentialsDek) >>= k) := by
  by_cases ha : b.providerType ∈ worker.adapters
  · rw [if_neg (not_not_intro ha)]
    cases hd : worker.decryptCredentials b.credentialsBlob b.credentialsDek with
    | ok creds => exact hk creds ha hd
    | error e => exact .throw _
  · rw [if_pos ha]
    exact .throw _

theorem only_applyToBinding_credentials (operation : String)
    (before after : Option ProviderRecord) (b : ProviderBinding) :
    Only (Cmd.Authorized worker) (worker.applyToBinding operation before after b) := by
  refine only_checked worker fun creds ha hd => ?_
  split
  · exact .liftExcept_bind fun record => .perform_bind ⟨ha, hd⟩ fun _ => .liftExcept _
  · exact .liftExcept_bind fun record => .perform_bind ⟨ha, hd⟩ fun _ => .liftExcept _
  · exact .liftExcept_bind fun record => .perform_bind ⟨ha, hd⟩ fun _ => .liftExcept _
  · exact .throw _

theorem only_rollbackOnBinding_credentials (ctx : AppliedItemCtx) (b : ProviderBinding) :
    Only (Cmd.Authorized worker) (worker.rollbackOnBinding ctx b) := by
  refine only_checked worker fun creds ha hd => ?_
  split
  · split
    · exact .perform_bind ⟨ha, hd⟩ fun _ => .liftExcept _
    · exact .pure _
  · split
    · exact .perform_bind ⟨ha, hd⟩ fun _ => .liftExcept _
    · exact .pure _
  · split
    · exact .perform_bind ⟨ha, hd⟩ fun _ => .liftExcept _
    · exact .pure _
  · exact .pure _

theorem only_applyItems_credentials (items : List ChangesetItem) (applied : List AppliedItemCtx) :
    Only (Cmd.Authorized worker) (worker.applyItems items applied) := by
  induction items generalizing applied with
  | nil => exact .pure _
  | cons item items ih =>
    refine .bind (.attempt ?_) fun x => ?_
    · unfold ReconcileWorker.applyOneItem
      refine .perform_bind trivial fun _ => .liftExcept_bind fun row => ?_
      refine .liftExcept_bind fun zoneId => .liftExcept_bind fun after => ?_
      refine .liftExcept_bind fun before => ?_
      refine .perform_bind trivial fun _ => .liftExcept_bind fun bindings => ?_
      split
      · exact .throw _
      · exact .bind (.forM fun b _ => only_applyToBinding_credentials worker _ _ _ b)
          fun _ => .pure _
    · cases x with
      | ok ctx => exact ih _
      | error e => exact .throw _

private theorem only_updateStatus_credentials (id : String) (source target : ChangeSetStatus) :
    Only (Cmd.Authorized worker) (updateChangesetStatus id source target) := by
  unfold updateChangesetStatus
  split
  · exact .throw _
  · refine .perform_bind trivial fun r => .liftExcept_bind fun affected => ?_
    split
    · exact .throw _
    · exact .pure _

theorem only_applyFailed_credentials (id rollbackPolicy : String) (start : Nat)
    (applied : List AppliedItemCtx) :
    Only (Cmd.Authorized worker) (worker.applyFailed id rollbackPolicy start applied) := by
  have moves := fun source target => only_updateStatus_credentials worker id source target
  unfold ReconcileWorker.applyFailed
  refine .perform_bind trivial fun now => ?_
  dsimp only
  split
  · exact only_logged (moves _ _)
  · refine .bind (.attempt (moves _ _)) fun x => ?_
    cases x with
    | error e => exact .pure _
    | ok _ =>
      refine .bind (.attempt (.forM fun ctx _ => ?_)) fun x => ?_
      · refine .perform_bind trivial fun _ => .liftExcept_bind fun bindings => ?_
        exact .forM fun b _ => only_rollbackOnBinding_credentials worker ctx b
      · cases x with
        | ok _ => exact only_logged (moves _ _)
        | error e => exact only_logged (moves _ _)

/-- Every call of the apply loop is made with the decrypted credentials of its binding, over the
    adapter of its provider. -/
theorem only_runApplyLoop_credentials (ticks : Nat) :
    Only (Cmd.Authorized worker) (worker.runApplyLoop ticks) := by
  refine .forM fun _ _ => .turn ?_
  refine .perform_bind trivial fun _ => .liftExcept_bind fun rows => .forM fun row _ => ?_
  refine only_logged (.perform_bind trivial fun start => ?_)
  refine .bind (only_updateStatus_credentials worker _ _ _) fun _ => ?_
  refine .perform_bind trivial fun _ => .liftExcept_bind fun items => ?_
  refine .bind (.attempt (only_applyItems_credentials worker items [])) fun x => ?_
  cases x with
  | ok ctxs => exact only_updateStatus_credentials worker _ _ _
  | error e => exact only_applyFailed_credentials worker _ _ start e.1

end Worker

end DnsManager

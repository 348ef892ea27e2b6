import DnsManager.Spec.ChangesetOutcome

/-!
# What a rollback leaves behind

A context for the rollback is kept for an item once all its bindings are written. When an
item stops after some of them, these writes stay, unless a rolled-back item of the zone
wrote the same key before, or the write had not changed anything.

## Key results
- `rolledBack_restores_iff`: a change set that ends in `rolled_back` has left the provider
  zones as they were exactly when no write is `Stranded` in this way.
-/

namespace DnsManager

section Worker

variable [CryptoLib] [SerdeJson] (worker : ReconcileWorker)

/-- An item stops after its key was written on some of its bindings, no item before it in the
    same zone writes that key, and it is not an update that changes nothing. -/
def Stranded (env : Env) (w : World) (items : List ChangesetItem) : Prop :=
  ∃ pre item post ctxs ctx key value done b, items = pre ++ item :: post ∧
    ItemsSucceed worker env w pre ctxs ∧
    ItemStops worker env (w.itemsApplied ctxs) item ctx key value done b ∧ done ≠ [] ∧
    (∀ c ∈ ctxs, c.zoneId = ctx.zoneId → ∀ v, c.write ≠ some (key, v)) ∧
    ¬ (ctx.operation = "update" ∧ ctx.afterRecord = ctx.beforeRecord)

/-- Where a failing call has no effect, an item that stops has written on the bindings before
    that call. -/
private theorem contents_itemStopped {env : Env} (hlost : ∀ n e, env.calls n ≠ .lost e) {w : World}
    {item : ChangesetItem} {ctx : AppliedItemCtx} {key : RecordKey}
    {value : Option ProviderRecord} {done : List ProviderBinding} {b : ProviderBinding}
    (h : ItemStops worker env w item ctx key value done b) :
    (w.itemStopped worker env done b key value).contents =
      Write.execAll (Write.broadcast (done.map (·.id)) key value) w.contents := by
  unfold World.itemStopped World.stopped
  split
  · next hu =>
    -- the item stopped at a call, which was refused and wrote nothing
    have hc : env.calls (w.calls + done.length) ≠ .ok :=
      h.stop.stop.resolve_left (not_not_intro hu)
    unfold World.call
    split
    · next hok => exact absurd hok hc
    · rfl
    · next e hl => exact absurd hl (hlost _ e)
  · rfl

/-- A well-formed item that succeeds writes one key, and its inverse writes the same. -/
private theorem ItemsSucceed.same_key {env : Env} {w : World} {items : List ChangesetItem}
    {ctxs : List AppliedItemCtx} (h : ItemsSucceed worker env w items ctxs)
    (hwf : WellFormedWhenReached worker env w items) {ctx : AppliedItemCtx} (hctx : ctx ∈ ctxs) :
    ∃ key new old, ctx.write = some (key, new) ∧ ctx.undo = some (key, old) := by
  induction h with
  | nil w => cases hctx
  | cons head tail ih =>
    obtain ⟨hhead, htail⟩ := (wellFormedWhenReached_cons worker).mp hwf
    rcases List.mem_cons.mp hctx with rfl | hmem
    · obtain ⟨_, _, hr⟩ := head.ready
      obtain ⟨key, new, old, hw, hu, -⟩ := (hhead _ hr.resolved).write_undo
      exact ⟨key, new, old, hw, hu⟩
    · exact ih (htail _ head) hmem

omit [CryptoLib] [SerdeJson] in
/-- A plan writes a key of an active binding exactly when a context of its zone does. -/
private theorem touches_plan {db : Database} {zoneId : String} {b : ProviderBinding}
    (hb : b ∈ db.activeBindings zoneId) (key : RecordKey)
    (write : AppliedItemCtx → Option (RecordKey × Option ProviderRecord))
    (ctxs : List AppliedItemCtx) :
    Write.Touches (ctxs.flatMap fun ctx => db.onBindings ctx.zoneId (write ctx)) b.id key ↔
      ∃ ctx ∈ ctxs, ctx.zoneId = zoneId ∧ ∃ value, write ctx = some (key, value) := by
  rw [Write.touches_flatMap]
  refine exists_congr fun ctx => and_congr_right fun _ => ?_
  cases hw : write ctx with
  | none => simp [Database.onBindings]
  | some kv =>
    obtain ⟨k, v⟩ := kv
    simp [Database.onBindings, mem_activeIds hb]

/-- The contents after the rollback of an apply that stopped at an item: they are the old ones
    exactly when the writes of that item, if there are any, are covered or change nothing. -/
private theorem rollback_stopped_iff {env : Env} {w : World} {pre post : List ChangesetItem}
    {item : ChangesetItem} {ctxs : List AppliedItemCtx} {ctx : AppliedItemCtx} {key : RecordKey}
    {value : Option ProviderRecord} {done : List ProviderBinding} {b : ProviderBinding}
    (hwf : WellFormedWhenReached worker env w (pre ++ item :: post))
    (hpre : ItemsSucceed worker env w pre ctxs)
    (hstops : ItemStops worker env (w.itemsApplied ctxs) item ctx key value done b) :
    Write.execAll (rollbackPlan w.db ctxs)
        (Write.execAll (Write.broadcast (done.map (·.id)) key value)
          (w.itemsApplied ctxs).contents) = w.contents ↔
      done = [] ∨ (∃ c ∈ ctxs, c.zoneId = ctx.zoneId ∧ ∃ v, c.write = some (key, v)) ∨
        ctx.operation = "update" ∧ ctx.afterRecord = ctx.beforeRecord := by
  have hres : resolve w.db item = some ctx := by
    rw [← w.db_itemsApplied ctxs]; exact hstops.ready.resolved
  obtain ⟨key', new, old, hw, -, hold, hsame⟩ :=
    (hwf pre item post ctxs rfl hpre ctx hres).write_undo
  obtain ⟨rfl, rfl⟩ : key' = key ∧ new = value := by
    simpa using Option.some.inj (hw.symm.trans hstops.ready.write)
  have hactive : ∀ b' ∈ done, b' ∈ w.db.activeBindings ctx.zoneId := by
    intro b' hb'
    rw [← w.db_itemsApplied ctxs]
    exact hstops.stop.isPrefix.subset (List.mem_append_left _ hb')
  have hwfpre := hwf.of_append
  -- the rollback undoes the items before this one
  have hback : Write.execAll (rollbackPlan w.db ctxs) (w.itemsApplied ctxs).contents = w.contents := by
    rw [World.contents_itemsApplied]
    exact hpre.rollback_apply worker hwfpre
  -- the rollback covers the key when one of them wrote it in the same zone
  have hcovered : ∀ id ∈ done.map (·.id), Write.Touches (rollbackPlan w.db ctxs) id key' ↔
      ∃ c ∈ ctxs, c.zoneId = ctx.zoneId ∧ ∃ v, c.write = some (key', v) := by
    intro id hid
    obtain ⟨b', hb', rfl⟩ := List.mem_map.mp hid
    refine (touches_plan (hactive b' hb') key' AppliedItemCtx.undo ctxs.reverse).trans ?_
    refine exists_congr fun c => ?_
    rw [List.mem_reverse]
    refine and_congr_right fun hc => and_congr_right fun _ => ?_
    obtain ⟨k, n, o, hcw, hcu⟩ := hpre.same_key worker hwfpre hc
    simp [hcw, hcu]
  have hheld : ∀ id ∈ done.map (·.id), (w.itemsApplied ctxs).contents id key' = old := by
    intro id hid
    obtain ⟨b', hb', rfl⟩ := List.mem_map.mp hid
    exact hold b' (hactive b' hb')
  rw [Write.undo_broadcast_iff hback hheld hcovered, List.map_eq_nil_iff, hsame]

/-- How a run that ends in `rolled_back` has come there. -/
private theorem rolledBack_inv {env : Env} {w : World} {id rollbackPolicy : String}
    (hst : w.db.statusOf id = some .validated)
    (hend : ((worker.applySingleChangeset id rollbackPolicy).run
      (handle env) w).2.db.statusOf id = some .rolledBack) :
    ∃ applied w', ApplyStops worker env (w.claimed env id) (w.db.items id) applied w' ∧
      ((worker.applySingleChangeset id rollbackPolicy).run (handle env) w).2.contents =
        Write.execAll (rollbackPlan w.db applied) w'.contents := by
  have houtcome : Outcome worker env w id rollbackPolicy _ :=
    outcome_applySingleChangeset worker hst
  generalize ((worker.applySingleChangeset id rollbackPolicy).run (handle env) w).2 = final
    at hend houtcome
  cases houtcome with
  | rolledBack _ stops _ _ _ contents => exact ⟨_, _, stops, contents⟩
  | notClaimed _ status | itemsUnread _ status | notRollingBack _ _ status =>
    exact nomatch hend.symm.trans status
  | applied _ _ status | frozen _ _ _ status | rollbackFailed _ _ _ _ status =>
    rcases status with h | ⟨h, -⟩ <;> exact nomatch hend.symm.trans h

/-- The loop over the items stops at one item only. -/
private theorem stop_unique {env : Env} {w : World} {pre pre' post post' : List ChangesetItem}
    {item item' : ChangesetItem} {ctxs ctxs' : List AppliedItemCtx} {e e' : String} {w₁ w₁' : World}
    (heq : pre ++ item :: post = pre' ++ item' :: post')
    (hpre : ItemsSucceed worker env w pre ctxs) (hpre' : ItemsSucceed worker env w pre' ctxs')
    (hrun : (worker.applyOneItem item).run (handle env) (w.itemsApplied ctxs) = (.error e, w₁))
    (hrun' : (worker.applyOneItem item').run (handle env) (w.itemsApplied ctxs') =
      (.error e', w₁')) :
    pre' = pre ∧ item' = item ∧ ctxs' = ctxs := by
  have hall := run_applyItems_append worker hpre (item :: post) []
  have hall' := run_applyItems_append worker hpre' (item' :: post') []
  simp only [ReconcileWorker.applyItems, Prog.run_bind, Prog.run_attempt, hrun, hrun',
    Prog.run_throw, List.nil_append] at hall hall'
  -- one loop from one world has one error
  rw [heq, hall'] at hall
  obtain rfl : ctxs' = ctxs := by
    have := congrArg Prod.fst hall
    simpa using (Prod.mk.inj (Except.error.inj this)).1
  obtain ⟨rfl, htail⟩ := List.append_inj heq
    ((hpre.length_eq worker).trans (hpre'.length_eq worker).symm)
  exact ⟨rfl, (List.cons.inj htail).1.symm, rfl⟩

/-- A change set that ends in `rolled_back` has left every provider zone as it was exactly
    when no item stopped with stranded writes. -/
theorem rolledBack_restores_iff {env : Env} (hlost : ∀ n e, env.calls n ≠ .lost e) {w : World}
    {id rollbackPolicy : String} (hst : w.db.statusOf id = some .validated)
    (hwf : WellFormedWhenReached worker env (w.claimed env id) (w.db.items id))
    (hend : ((worker.applySingleChangeset id rollbackPolicy).run
      (handle env) w).2.db.statusOf id = some .rolledBack) :
    ((worker.applySingleChangeset id rollbackPolicy).run (handle env) w).2.contents = w.contents ↔
      ¬ Stranded worker env (w.claimed env id) (w.db.items id) := by
  obtain ⟨applied, w', ⟨e, hrun⟩, hcontents⟩ := rolledBack_inv worker hst hend
  rw [hcontents]
  rcases run_applyItems_cases worker env (w.claimed env id) (w.db.items id) [] with
    ⟨ctxs, -, hok⟩ | ⟨pre, item, post, ctxs, e', w'', hitems, hpre, hone, herr⟩
  · exact nomatch hrun.symm.trans hok
  cases hrun.symm.trans herr
  rw [hitems] at hwf ⊢
  rcases run_applyOneItem_cases worker env ((w.claimed env id).itemsApplied ctxs) item with
    ⟨_, -, hok⟩ | ⟨_, n, hearly, hstop⟩ | ⟨_, ctx, key, value, done, b, hstops, hstop⟩
  · exact nomatch hone.symm.trans hok
  · -- the item failed before its first write: the rollback restores what the others found
    cases hone.symm.trans hstop
    refine ⟨fun _ => ?_, fun _ => ?_⟩
    · rintro ⟨pre', item', post', ctxs', ctx, key, value, done, b, heq, hpre', hstops, -⟩
      obtain ⟨_, hone'⟩ := run_applyOneItem_of_stops worker hstops
      obtain ⟨rfl, rfl, rfl⟩ := stop_unique worker heq hpre hpre' hone hone'
      exact hearly _ _ _ hstops.ready
    · exact hpre.rollback_apply worker hwf.of_append ▸
        congrArg (Write.execAll (rollbackPlan w.db ctxs)) (World.contents_itemsApplied _ ctxs)
  · cases hone.symm.trans hstop
    have hiff := rollback_stopped_iff worker hwf hpre hstops
    rw [← contents_itemStopped worker hlost hstops] at hiff
    refine Iff.trans hiff ⟨?_, fun hno => ?_⟩
    · rintro hcase ⟨pre', item', post', ctxs', ctx', key', value', done', b', heq, hpre', hstops',
        hdone, hunc, hchange⟩
      obtain ⟨_, hone'⟩ := run_applyOneItem_of_stops worker hstops'
      obtain ⟨rfl, rfl, rfl⟩ := stop_unique worker heq hpre hpre' hone hone'
      obtain ⟨rfl, rfl, rfl⟩ := hstops.ready.unique hstops'.ready
      obtain ⟨rfl, rfl⟩ := hstops.stop.unique worker hstops'.stop
      rcases hcase with rfl | ⟨c, hc, hzone, v, hv⟩ | hupd
      · exact hdone rfl
      · exact hunc c hc hzone v hv
      · exact hchange hupd
    · by_contra hcase
      obtain ⟨hdone, hrest⟩ := not_or.mp hcase
      obtain ⟨hunc, hchange⟩ := not_or.mp hrest
      exact hno ⟨pre, item, post, ctxs, ctx, key, value, done, b, rfl, hpre, hstops, hdone,
        fun c hc hzone v hv => hunc ⟨c, hc, hzone, v, hv⟩, hchange⟩

end Worker

section Sample

open Sample

/-- A validated change set that creates `www` on both bindings. -/
private def strandedWorld : World :=
  { db := createdWww.setStatus "c1" (fun _ => true) .validated "2024-01-15T12:31:00+00:00"
    contents := fun _ _ => none }

/-- The second provider call is refused. -/
private def secondRefused : Env :=
  env fun n => if n = 1 then .refused .rateLimitExceeded else .ok

private theorem wellFormed_stranded :
    WellFormedWhenReached worker secondRefused (strandedWorld.claimed secondRefused "c1")
      (strandedWorld.db.items "c1") := by
  have hitems : strandedWorld.db.items "c1" =
      [⟨"c1", "r1", "create", none, some (recordJson (www "192.0.2.1"))⟩] := by decide +kernel
  rw [hitems, wellFormedWhenReached_cons]
  refine ⟨fun ctx hres => ?_, fun ctx _ => ?_⟩
  · obtain rfl : ⟨"z1", "create", none, some (www "192.0.2.1")⟩ = ctx :=
      Option.some.inj (Eq.trans (by decide +kernel) hres)
    exact ⟨_, rfl, fun _ _ => rfl⟩
  · exact fun pre it post _ heq => (nomatch (List.append_eq_nil_iff.mp heq.symm).2)

/-- A well-formed `create` on two bindings, of which the second refuses it: the change set ends
    in `rolled_back` with the record still on the first. -/
theorem rolledBack_stranded :
    WellFormedWhenReached worker secondRefused (strandedWorld.claimed secondRefused "c1")
        (strandedWorld.db.items "c1") ∧
      ((worker.applySingleChangeset "c1" "auto").run (handle secondRefused)
        strandedWorld).2.db.statusOf "c1" = some .rolledBack ∧
      ((worker.applySingleChangeset "c1" "auto").run (handle secondRefused)
        strandedWorld).2.contents "b1" ⟨"www", .a⟩ = some (www "192.0.2.1") ∧
      strandedWorld.contents "b1" ⟨"www", .a⟩ = none :=
  ⟨wellFormed_stranded, by decide +kernel, by decide +kernel, rfl⟩

/-- The write on the first binding is stranded. -/
theorem rolledBack_restores_iff_stranded :
    Stranded worker secondRefused (strandedWorld.claimed secondRefused "c1")
      (strandedWorld.db.items "c1") := by
  have hlost : ∀ n e, secondRefused.calls n ≠ .lost e := by
    intro n e
    simp only [secondRefused, env]
    split <;> exact fun h => (nomatch h)
  have hleft : ((worker.applySingleChangeset "c1" "auto").run (handle secondRefused)
      strandedWorld).2.contents "b1" ⟨"www", .a⟩ ≠ none := by decide +kernel
  by_contra hno
  have hend : ((worker.applySingleChangeset "c1" "auto").run (handle secondRefused)
      strandedWorld).2.db.statusOf "c1" = some .rolledBack := by decide +kernel
  have heq := (rolledBack_restores_iff worker hlost (by decide +kernel) wellFormed_stranded
    hend).mpr hno
  exact hleft (congrFun (congrFun heq "b1") ⟨"www", .a⟩)

end Sample

end DnsManager

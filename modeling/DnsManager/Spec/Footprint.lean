import DnsManager.ForStd.Monitor
import DnsManager.Spec.BindingLoop

/-!
# The keys an apply and its rollback write

`apply_items` and `rollback_items` each ask for the active bindings of a zone, once for every
item. As long as the rollback is shown the bindings that the apply was shown, and no `update`
renames its record, the rollback writes only keys of bindings that the apply has written.
This is a property of what `apply_single_changeset` issues and is answered, so it is stated
as what a recorder of its commands allows.

## Key results
- `obeys_applyItems`: every applied item was written on all bindings it was shown.
- `obeys_applySingleChangeset_footprint`: `FootprintAllows` holds of every command.
-/

namespace DnsManager

open Prog (Obeys liftExcept)

/-- The key a command writes, with the id of the binding. -/
def Cmd.target : Cmd → Option (String × RecordKey)
  | .upsertRecord b _ record => some (b.id, record.key)
  | .deleteRecord b _ key => some (b.id, key)
  | _ => none

/-- The keys some commands write. -/
def targets (cmds : List Cmd) : List (String × RecordKey) := cmds.filterMap Cmd.target

/-- The command between the apply and the automatic rollback of a change set. -/
abbrev startRollback (id : String) : Cmd := .updateStatus id .applying .rollingBack

/-- An `update` leaves its record the key it had. -/
def ChangesetItem.KeepsKey [SerdeJson] (item : ChangesetItem) : Prop :=
  item.operation = "update" → ∀ old new,
    ReconcileWorker.parseRecord "before_value" item.beforeValue = .ok (some old) →
    ReconcileWorker.parseRecord "after_value" item.afterValue = .ok (some new) →
    new.key = old.key

/-! ## What the programs may issue -/

/-- Commands with their replies. -/
abbrev Log := List (Sigma Cmd.Reply)

/-- The commands of a log. -/
abbrev Log.cmds (log : Log) : List Cmd := log.map Sigma.fst

/-- Whenever a zone's bindings were shown before and after, they were the same. -/
def Steady (pre post : Log) : Prop :=
  ∀ zoneId bs bs', ⟨.selectActiveBindings zoneId, .ok bs⟩ ∈ pre →
    ⟨.selectActiveBindings zoneId, .ok bs'⟩ ∈ post → bs' = bs

/-- No item of the change set that was shown renames its record. -/
def KeysKept [SerdeJson] (id : String) (log : Log) : Prop :=
  ∀ items, ⟨.selectItems id, .ok items⟩ ∈ log → ∀ item ∈ items, item.KeepsKey

/-- After the rollback has started, only keys that were written before are written, provided
    the bindings are steady and the keys kept. -/
def FootprintAllows [SerdeJson] (id : String) (log : Log) (c : Cmd) : Prop :=
  ∀ pre e post, log = pre ++ e :: post → e.1 = startRollback id → Steady pre post →
    KeysKept id pre → ∀ t, c.target = some t → t ∈ targets pre.cmds

section Worker

variable [CryptoLib] [SerdeJson] (worker : ReconcileWorker)
variable {id : String} {pre log : Log} {e : Sigma Cmd.Reply}

/-- The recorder of what a change set's worker issues. -/
abbrev footprint (id : String) : Prog.Monitor Cmd Cmd.Reply := Prog.recorder (FootprintAllows id)

/-- The log so far is one of the apply: it extends `log`, and no rollback has started. -/
structure Applying (id : String) (log log' : Log) : Prop where
  extends_ : log <+: log'
  notStarted : startRollback id ∉ log'.cmds

namespace Applying

omit [CryptoLib] [SerdeJson] in
theorem trans {log₁ log₂ log₃ : Log} (h : Applying id log₁ log₂) (h' : Applying id log₂ log₃) :
    Applying id log₁ log₃ := ⟨h.extends_.trans h'.extends_, h'.notStarted⟩

omit [CryptoLib] in
/-- Before the rollback has started, anything may be issued. -/
theorem allows {log' : Log} (h : Applying id log log') (c : Cmd) : FootprintAllows id log' c := by
  intro pre e post heq he
  refine absurd ?_ h.notStarted
  rw [heq, ← he]
  simp [Log.cmds]

omit [CryptoLib] [SerdeJson] in
theorem concat {log' : Log} (h : Applying id log log') {c : Cmd} (hc : c ≠ startRollback id)
    (r : c.Reply) : Applying id log (log' ++ [⟨c, r⟩]) := by
  refine ⟨h.extends_.trans (List.prefix_append _ _), ?_⟩
  simp only [Log.cmds, List.map_append, List.map_singleton, List.mem_append, List.mem_singleton]
  exact not_or.mpr ⟨h.notStarted, Ne.symm hc⟩

end Applying

/-- The item's key was written on the binding. -/
def AppliedItemCtx.WrittenOn (ctx : AppliedItemCtx) (log : Log) (b : ProviderBinding) : Prop :=
  ∃ key, ctx.write.map Prod.fst = some key ∧ (b.id, key) ∈ targets log.cmds

/-- The context comes from the item. -/
structure AppliedItemCtx.ComesFrom (ctx : AppliedItemCtx) (item : ChangesetItem) : Prop where
  operation : ctx.operation = item.operation
  after : ReconcileWorker.parseRecord "after_value" item.afterValue = .ok ctx.afterRecord
  before : ReconcileWorker.parseRecord "before_value" item.beforeValue = .ok ctx.beforeRecord

/-- The item was shown some bindings and its key was written on all of them. -/
def AppliedItemCtx.Applied (ctx : AppliedItemCtx) (log : Log) : Prop :=
  ∃ bs, ⟨.selectActiveBindings ctx.zoneId, .ok bs⟩ ∈ log ∧ ∀ b ∈ bs, ctx.WrittenOn log b

omit [CryptoLib] [SerdeJson] in
theorem targets_subset {log log' : Log} (h : log <+: log') :
    targets log.cmds ⊆ targets log'.cmds :=
  ((h.map Sigma.fst).filterMap Cmd.target).subset

omit [CryptoLib] [SerdeJson] in
theorem AppliedItemCtx.WrittenOn.mono {ctx : AppliedItemCtx} {log log' : Log} {b : ProviderBinding}
    (h : ctx.WrittenOn log b) (hlog : log <+: log') : ctx.WrittenOn log' b := by
  obtain ⟨key, hw, ht⟩ := h
  exact ⟨key, hw, targets_subset hlog ht⟩

omit [CryptoLib] [SerdeJson] in
theorem AppliedItemCtx.Applied.mono {ctx : AppliedItemCtx} {log log' : Log}
    (h : ctx.Applied log) (hlog : log <+: log') : ctx.Applied log' := by
  obtain ⟨bs, hread, hall⟩ := h
  exact ⟨bs, hlog.subset hread, fun b hb => (hall b hb).mono hlog⟩

/-! ### The apply -/

omit [CryptoLib] in
/-- The call for a write has one target. -/
private theorem obeys_writeCall {b : ProviderBinding} {creds : Credentials} {key : RecordKey}
    {value : Option ProviderRecord} (hkey : ∀ record, value = some record → record.key = key)
    {k : Except ProviderError Unit → WorkerM Unit} {Q : Except String Unit → Log → Prop}
    (hc : ∀ c : Cmd, c.target = some (b.id, key) → FootprintAllows id log c)
    (hk : ∀ (c : Cmd) (r : c.Reply) (x : Except ProviderError Unit),
      c.target = some (b.id, key) → Obeys (footprint id) (k x) (log ++ [⟨c, r⟩]) Q) :
    Obeys (footprint id) (writeCall b creds key value >>= k) log Q := by
  cases value with
  | none => exact Obeys.perform_bind (hc _ rfl) fun r => hk _ r _ rfl
  | some record =>
    have ht : (Cmd.upsertRecord b creds record).target = some (b.id, key) := by
      rw [← hkey record rfl]
      rfl
    exact Obeys.perform_bind (hc _ ht) fun r => hk _ r _ ht

omit [CryptoLib] [SerdeJson] in
private theorem ne_startRollback_of_target {c : Cmd} {t : String × RecordKey}
    (ht : c.target = some t) : c ≠ startRollback id := by
  rintro rfl
  cases ht

/-- The loop body of `apply_one_item` writes the item's key on the binding, or fails. -/
theorem obeys_applyToBinding {log log' : Log} (h : Applying id log log') (ctx : AppliedItemCtx)
    (b : ProviderBinding) :
    Obeys (footprint id)
      (worker.applyToBinding ctx.operation ctx.beforeRecord ctx.afterRecord b) log' fun x log'' =>
        Applying id log' log'' ∧ (x = .ok () → ctx.WrittenOn log'' b) := by
  have hself : Applying id log' log' := ⟨List.prefix_rfl, h.notStarted⟩
  cases loopBody_applyToBinding worker ctx b with
  | unusable e hu hp =>
    rw [hp]
    exact ⟨hself, nofun⟩
  | nothing x hu hw hx hp =>
    rw [hp]
    exact Obeys.liftExcept ⟨hself, fun hok => absurd hok hx⟩
  | @call key value creds text hu hw hkey hp =>
    rw [hp]
    refine obeys_writeCall hkey (fun c _ => h.allows c) fun c r x ht => Obeys.liftExcept ?_
    -- the call itself puts the key among the targets
    have hmem : c ∈ (log' ++ [⟨c, r⟩] : Log).cmds := by simp [Log.cmds]
    have hkeys : ctx.write.map Prod.fst = some key := by rw [hw]; rfl
    refine ⟨hself.concat (ne_startRollback_of_target ht) r, fun _ => ⟨key, hkeys, ?_⟩⟩
    exact List.mem_filterMap.mpr ⟨c, hmem, ht⟩

/-- The loop of `apply_one_item` writes the item's key on all bindings, or fails. -/
theorem obeys_forM_applyToBinding {log log' : Log} (h : Applying id log log')
    (ctx : AppliedItemCtx) (bs : List ProviderBinding) :
    Obeys (footprint id)
      (forM bs (worker.applyToBinding ctx.operation ctx.beforeRecord ctx.afterRecord)) log'
      fun x log'' => Applying id log' log'' ∧ (x = .ok () → ∀ b ∈ bs, ctx.WrittenOn log'' b) := by
  induction bs generalizing log log' with
  | nil => exact ⟨⟨List.prefix_rfl, h.notStarted⟩, nofun⟩
  | cons b bs ih =>
    rw [List.forM_cons]
    refine Obeys.bind ((obeys_applyToBinding worker h ctx b).mono fun x log₁ hx => ?_)
    obtain ⟨h₁, hb⟩ := hx
    cases x with
    | error e => exact ⟨h₁, nofun⟩
    | ok _ =>
      refine (ih h₁).mono fun x log₂ hx => ⟨h₁.trans hx.1, fun hok => ?_⟩
      exact List.forall_mem_cons.mpr ⟨(hb rfl).mono hx.1.extends_, hx.2 hok⟩

/-- An item that goes through was written on all bindings it was shown. -/
theorem obeys_applyOneItem_footprint {log log' : Log} (h : Applying id log log')
    (item : ChangesetItem) :
    Obeys (footprint id) (worker.applyOneItem item) log' fun x log'' =>
      Applying id log' log'' ∧ ∀ ctx, x = .ok ctx → ctx.ComesFrom item ∧ ctx.Applied log'' := by
  have hself : Applying id log' log' := ⟨List.prefix_rfl, h.notStarted⟩
  unfold ReconcileWorker.applyOneItem
  refine Obeys.perform_bind (h.allows _) fun r => ?_
  have h₁ := hself.concat (c := .selectZone item.recordId) nofun r
  refine Obeys.liftExcept_bind (fun row _ => ?_) fun _ _ => ⟨h₁, nofun⟩
  refine Obeys.liftExcept_bind (fun zoneId _ => ?_) fun _ _ => ⟨h₁, nofun⟩
  refine Obeys.liftExcept_bind (fun after hafter => ?_) fun _ _ => ⟨h₁, nofun⟩
  refine Obeys.liftExcept_bind (fun before hbefore => ?_) fun _ _ => ⟨h₁, nofun⟩
  refine Obeys.perform_bind (h₁.allows _) fun r' => ?_
  have h₂ := h₁.concat (c := .selectActiveBindings zoneId) nofun r'
  refine Obeys.liftExcept_bind (fun bs hbs => ?_) fun _ _ => ⟨h₂, nofun⟩
  subst hbs
  -- no active binding is an error; otherwise the loop writes on all of those that were read
  split
  · exact ⟨h₂, nofun⟩
  · refine Obeys.bind (Obeys.mono
      (obeys_forM_applyToBinding worker h₂ ⟨zoneId, item.operation, before, after⟩ bs) ?_)
    rintro x log₃ ⟨h₃, hall⟩
    cases x with
    | error e => exact ⟨h₂.trans h₃, nofun⟩
    | ok _ =>
      refine ⟨h₂.trans h₃, fun ctx hctx => ?_⟩
      cases hctx
      exact ⟨⟨rfl, hafter, hbefore⟩, bs, h₃.extends_.subset (by simp), hall rfl⟩

/-- The items `apply_items` leaves for a rollback. -/
def appliedOf : Except (List AppliedItemCtx × String) (List AppliedItemCtx) → List AppliedItemCtx
  | .ok applied => applied
  | .error (applied, _) => applied

/-- The applied items come from items of the list, and each was written on all bindings it was
    shown. -/
theorem obeys_applyItems {all items : List ChangesetItem} (hsub : items ⊆ all)
    {applied : List AppliedItemCtx} {log log' : Log} (h : Applying id log log')
    (happlied : ∀ ctx ∈ applied, (∃ item ∈ all, ctx.ComesFrom item) ∧ ctx.Applied log') :
    Obeys (footprint id) (worker.applyItems items applied) log' fun x log'' =>
      Applying id log' log'' ∧ ∀ ctx ∈ appliedOf x,
        (∃ item ∈ all, ctx.ComesFrom item) ∧ ctx.Applied log'' := by
  induction items generalizing applied log log' with
  | nil => exact ⟨⟨List.prefix_rfl, h.notStarted⟩, happlied⟩
  | cons item items ih =>
    obtain ⟨hitem, hitems⟩ := List.cons_subset.mp hsub
    refine Obeys.bind (Obeys.attempt
      ((obeys_applyOneItem_footprint worker h item).mono fun x log₁ hx => ?_))
    obtain ⟨h₁, hctx⟩ := hx
    have hold : ∀ ctx ∈ applied, (∃ item ∈ all, ctx.ComesFrom item) ∧ ctx.Applied log₁ :=
      fun ctx hc => (happlied ctx hc).imp_right (·.mono h₁.extends_)
    cases x with
    -- the failing item may have written, but it is not among those to roll back
    | error e => exact ⟨h₁, hold⟩
    | ok ctx =>
      refine (ih hitems h₁ fun c hc => ?_).mono fun x log₂ hx => ⟨h₁.trans hx.1, hx.2⟩
      rcases List.mem_append.mp hc with hc | hc
      · exact hold c hc
      · obtain rfl := List.mem_singleton.mp hc
        exact ⟨⟨item, hitem, (hctx _ rfl).1⟩, (hctx _ rfl).2⟩

/-! ### The rollback -/

/-- The log so far is one of the rollback: the apply's log `pre`, the start of the rollback,
    and the rollback's log `post`. -/
structure RollingBack (id : String) (pre log post : Log) : Prop where
  split : ∃ r, log = pre ++ ⟨startRollback id, r⟩ :: post
  notBefore : startRollback id ∉ pre.cmds
  notAgain : startRollback id ∉ post.cmds

namespace RollingBack

variable {post : Log}

omit [CryptoLib] in
/-- During the rollback, what keeps to the footprint may be issued. -/
theorem allows (h : RollingBack id pre log post) {c : Cmd}
    (hc : Steady pre post → KeysKept id pre → ∀ t, c.target = some t → t ∈ targets pre.cmds) :
    FootprintAllows id log c := by
  intro pre' e' post' heq he hsteady hkept
  obtain ⟨r, hsplit⟩ := h.split
  -- the start of the rollback occurs once, so the log splits there in one way
  have hout : ∀ {l : Log}, startRollback id ∉ l.cmds → e' ∉ l :=
    fun hn hmem => hn (he ▸ List.mem_map_of_mem hmem)
  obtain ⟨rfl, -, rfl⟩ := (List.append_cons_inj_of_notMem (hout h.notBefore)
    (hout h.notAgain)).mp (hsplit.symm.trans heq)
  exact hc hsteady hkept

omit [CryptoLib] [SerdeJson] in
theorem concat (h : RollingBack id pre log post) {c : Cmd} (hc : c ≠ startRollback id)
    (r : c.Reply) : RollingBack id pre (log ++ [⟨c, r⟩]) (post ++ [⟨c, r⟩]) := by
  obtain ⟨r', hsplit⟩ := h.split
  refine ⟨⟨r', by rw [hsplit, List.append_assoc]; rfl⟩, h.notBefore, ?_⟩
  simp only [Log.cmds, List.map_append, List.map_singleton, List.mem_append, List.mem_singleton]
  exact not_or.mpr ⟨h.notAgain, Ne.symm hc⟩

end RollingBack

omit [CryptoLib] in
/-- Undoing an item writes the key that applying it wrote. -/
theorem AppliedItemCtx.ComesFrom.undo_key {ctx : AppliedItemCtx} {item : ChangesetItem}
    (h : ctx.ComesFrom item) (hkeep : item.KeepsKey) {key key' : RecordKey}
    (hw : ctx.write.map Prod.fst = some key) (hu : ctx.undo.map Prod.fst = some key') :
    key' = key := by
  unfold AppliedItemCtx.write at hw
  unfold AppliedItemCtx.undo at hu
  split at hu
  · next hop =>
    simp only [hop, Option.map_map] at hw hu
    exact Option.some.inj (hu.symm.trans hw)
  · next hop =>
    -- an update writes the key of `after_value`, and undoing it that of `before_value`
    simp only [hop, Option.map_map, Option.map_eq_some_iff] at hw hu
    obtain ⟨new, hnew, rfl⟩ := hw
    obtain ⟨old, hold, rfl⟩ := hu
    exact (hkeep (h.operation.symm.trans hop) old new (h.before.trans (congrArg _ hold))
      (h.after.trans (congrArg _ hnew))).symm
  · next hop =>
    simp only [hop, Option.map_map] at hw hu
    exact Option.some.inj (hu.symm.trans hw)
  · cases hu

/-- The loop body of `rollback_items` writes the key of the item's inverse on the binding. -/
theorem obeys_rollbackOnBinding {post : Log} (h : RollingBack id pre log post)
    (ctx : AppliedItemCtx) (b : ProviderBinding)
    (hb : Steady pre post → KeysKept id pre → ∀ key, ctx.undo.map Prod.fst = some key →
      (b.id, key) ∈ targets pre.cmds) :
    Obeys (footprint id) (worker.rollbackOnBinding ctx b) log fun _ log' =>
      ∃ post', RollingBack id pre log' post' ∧ post <+: post' := by
  have hself : ∃ post', RollingBack id pre log post' ∧ post <+: post' := ⟨post, h, List.prefix_rfl⟩
  cases loopBody_rollbackOnBinding worker ctx b with
  | unusable e hu hp =>
    rw [hp]
    exact hself
  | nothing x hu hw hx hp =>
    rw [hp]
    exact Obeys.liftExcept hself
  | @call key value creds text hu hw hkey hp =>
    have hundo : ctx.undo.map Prod.fst = some key := by rw [hw]; rfl
    rw [hp]
    refine obeys_writeCall hkey (fun c ht => h.allows fun hsteady hkept t htt => ?_)
      fun c r x ht => Obeys.liftExcept ?_
    · obtain rfl := Option.some.inj (htt.symm.trans ht)
      exact hb hsteady hkept key hundo
    · exact ⟨_, h.concat (ne_startRollback_of_target ht) r, List.prefix_append _ _⟩

/-- Rolling an applied item back keeps to the footprint. -/
theorem obeys_rollbackOneItem {post : Log} (h : RollingBack id pre log post)
    {ctx : AppliedItemCtx} (happlied : ctx.Applied pre)
    (hitem : KeysKept id pre → ∃ item : ChangesetItem, item.KeepsKey ∧ ctx.ComesFrom item) :
    Obeys (footprint id) (worker.rollbackOneItem ctx) log fun _ log' =>
      ∃ post', RollingBack id pre log' post' := by
  unfold ReconcileWorker.rollbackOneItem
  refine Obeys.perform_bind (h.allows nofun) fun r => ?_
  have h₁ := h.concat (c := .selectActiveBindings ctx.zoneId) nofun r
  refine Obeys.liftExcept_bind (fun bs hbs => ?_) fun _ _ => ⟨_, h₁⟩
  subst hbs
  -- the loop keeps the bindings that were shown in the log
  refine Obeys.mono (Obeys.forM (m := footprint id) (fun log' => ∃ post', RollingBack id pre log' post' ∧
    ⟨.selectActiveBindings ctx.zoneId, .ok bs⟩ ∈ post') ⟨_, h₁, by simp⟩ ?_)
    fun _ _ hlog => hlog.imp fun _ hpost => hpost.1
  rintro b hb log' ⟨post', h', hread⟩
  refine (obeys_rollbackOnBinding worker h' ctx b fun hsteady hkept key hu => ?_).mono ?_
  · obtain ⟨bs₀, hread₀, hall⟩ := happlied
    obtain rfl := hsteady _ _ _ hread₀ hread
    obtain ⟨key₀, hw, ht⟩ := hall b hb
    obtain ⟨item, hkeep, hfrom⟩ := hitem hkept
    rwa [hfrom.undo_key hkeep hw hu]
  · rintro _ log'' ⟨post'', h'', hpre⟩
    exact ⟨post'', h'', hpre.subset hread⟩

omit [CryptoLib] in
/-- A status update that goes through is the one command issued. -/
theorem obeys_updateChangesetStatus {source target : ChangeSetStatus}
    (h : FootprintAllows id log (.updateStatus id source target)) :
    Obeys (footprint id) (updateChangesetStatus id source target) log fun x (log' : Log) =>
      x = .ok () → ∃ r, log' = log ++ [⟨.updateStatus id source target, r⟩] := by
  unfold updateChangesetStatus
  split
  · exact nofun
  · refine Obeys.perform_bind h fun r => ?_
    refine Obeys.liftExcept_bind (fun affected _ => ?_) fun _ _ => nofun
    split
    · exact nofun
    · exact fun _ => ⟨r, rfl⟩

omit [CryptoLib] in
theorem obeys_logged_updateChangesetStatus {source target : ChangeSetStatus}
    (h : FootprintAllows id log (.updateStatus id source target)) :
    Obeys (footprint id) (logged (updateChangesetStatus id source target)) log fun _ _ => True :=
  Obeys.bind (Obeys.attempt ((obeys_updateChangesetStatus h).mono fun _ _ _ => trivial))

/-- The automatic rollback of items that were applied keeps to the footprint. -/
theorem obeys_rollBack {post : Log} (h : RollingBack id pre log post)
    {applied : List AppliedItemCtx} (happlied : ∀ ctx ∈ applied, ctx.Applied pre ∧
      (KeysKept id pre → ∃ item : ChangesetItem, item.KeepsKey ∧ ctx.ComesFrom item)) :
    Obeys (footprint id) (worker.rollBack id applied) log fun _ _ => True := by
  refine Obeys.bind (Obeys.attempt (Obeys.mono (Obeys.forM (m := footprint id)
    (fun log' => ∃ post', RollingBack id pre log' post') ⟨post, h⟩ ?_) ?_))
  · rintro ctx hctx log' ⟨post', h'⟩
    obtain ⟨happ, hitem⟩ := happlied ctx (List.mem_reverse.mp hctx)
    exact obeys_rollbackOneItem worker h' happ hitem
  · rintro x log' ⟨post', h'⟩
    cases x with
    | ok _ => exact obeys_logged_updateChangesetStatus (h'.allows nofun)
    | error e => exact obeys_logged_updateChangesetStatus (h'.allows nofun)

theorem obeys_applyFailed_footprint {log' : Log} (h : Applying id log log')
    (rollbackPolicy : String) (start : Nat) {applied : List AppliedItemCtx}
    (happlied : ∀ ctx ∈ applied, ctx.Applied log' ∧
      (KeysKept id log' → ∃ item : ChangesetItem, item.KeepsKey ∧ ctx.ComesFrom item)) :
    Obeys (footprint id) (worker.applyFailed id rollbackPolicy start applied) log'
      fun _ _ => True := by
  unfold ReconcileWorker.applyFailed
  refine Obeys.perform_bind (h.allows _) fun now => ?_
  have h₁ := h.concat (c := .instant) nofun now
  dsimp only
  -- frozen, or rolled back if the transition to `rolling_back` goes through
  split
  · exact obeys_logged_updateChangesetStatus (h₁.allows _)
  · refine Obeys.bind (Obeys.attempt ((obeys_updateChangesetStatus (h₁.allows _)).mono ?_))
    intro x log₂ hx
    cases x with
    | error e => trivial
    | ok _ =>
      obtain ⟨r, rfl⟩ := hx rfl
      have hroll : RollingBack id (log' ++ [⟨.instant, now⟩])
          ((log' ++ [⟨.instant, now⟩]) ++ [⟨startRollback id, r⟩]) [] :=
        ⟨⟨r, rfl⟩, h₁.notStarted, nofun⟩
      refine obeys_rollBack worker hroll fun ctx hctx => ?_
      obtain ⟨happ, hitem⟩ := happlied ctx hctx
      exact ⟨happ.mono (List.prefix_append _ _),
        fun hkept => hitem fun items hi => hkept items (List.mem_append_left _ hi)⟩

/-- `apply_single_changeset` keeps to the footprint, whatever its commands are answered. -/
theorem obeys_applySingleChangeset_footprint (id rollbackPolicy : String) :
    Obeys (footprint id) (worker.applySingleChangeset id rollbackPolicy) [] fun _ _ => True := by
  have h₀ : Applying id [] [] := ⟨List.prefix_rfl, nofun⟩
  unfold ReconcileWorker.applySingleChangeset
  refine Obeys.perform_bind (h₀.allows _) fun start => ?_
  have h₁ := h₀.concat (c := .instant) nofun start
  refine Obeys.bind ((obeys_updateChangesetStatus (h₁.allows _)).mono fun x log₂ hx => ?_)
  cases x with
  | error e => trivial
  | ok _ =>
    obtain ⟨r, rfl⟩ := hx rfl
    have h₂ := h₁.concat (c := .updateStatus id .validated .applying) (by simp) r
    refine Obeys.perform_bind (h₂.allows _) fun r' => ?_
    have h₃ := h₂.concat (c := .selectItems id) nofun r'
    refine Obeys.liftExcept_bind (fun items hitems => ?_) fun _ _ => trivial
    subst hitems
    refine Obeys.bind (Obeys.attempt (Obeys.mono
      (obeys_applyItems worker (List.Subset.refl items) h₃ nofun) ?_))
    rintro x (log₄ : Log) ⟨h₄, happlied⟩
    cases x with
    | ok ctxs =>
      exact (obeys_updateChangesetStatus (h₄.allows _)).mono fun _ _ _ => trivial
    | error e =>
      -- the applied items come from the items that were read, which the log still shows
      refine obeys_applyFailed_footprint worker h₄ rollbackPolicy start fun ctx hctx => ?_
      obtain ⟨⟨item, hmem, hfrom⟩, happ⟩ := happlied ctx hctx
      have hread : ⟨.selectItems id, .ok items⟩ ∈ log₄ :=
        h₄.extends_.subset (List.mem_append_right _ List.mem_cons_self)
      exact ⟨happ, fun hkept => ⟨item, hkept items hread item hmem, hfrom⟩⟩

end Worker

end DnsManager

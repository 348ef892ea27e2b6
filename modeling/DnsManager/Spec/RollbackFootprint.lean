import DnsManager.Api.Providers
import DnsManager.ForStd.Except
import DnsManager.Spec.Footprint
import DnsManager.Spec.Sample

/-!
# Rollback while zones are bound

`create_provider` requests may bind a zone to further providers between any two commands of
`apply_single_changeset`. A binding that comes between a reading of the apply and one of the
rollback is written by the rollback alone.

## Key results
- `rollback_footprint`: under requests that bind no zone between two such readings, the
  rollback writes only what the apply wrote, and every other key is as before.
- `rollback_deletes_foreign`: with such a request, it deletes a record of the new binding.
-/

namespace DnsManager

/-! ## Requests between the commands -/

section Requests

variable [CryptoLib] [SerdeJson] (registeredProviders : List String) (keyProvider : KeyProvider)

/-- The `create_provider` requests that are served right before each command of the worker,
    with what they draw. -/
abbrev Arrivals := Nat → List (ProviderDraws × CreateProviderRequest)

/-- Serve a request: it inserts its binding, or changes nothing. -/
def World.serve (w : World) (request : ProviderDraws × CreateProviderRequest) : World :=
  match createProvider registeredProviders keyProvider w.db request.1 request.2 with
  | .ok db => { w with db, commits := w.commits + 1 }
  | .error _ => w

/-- The world when the requests before command `n` are served, and nothing else happens. -/
def World.servedBefore (arrivals : Arrivals) (w : World) : Nat → World
  | 0 => w
  | n + 1 => (arrivals n).foldl (serve registeredProviders keyProvider)
      (servedBefore arrivals w n)

/-- A request that is served right before command `n` binds the zone to a provider. -/
def BindsBefore (arrivals : Arrivals) (w : World) (zoneId : String) (n : Nat) : Prop :=
  (w.servedBefore registeredProviders keyProvider arrivals (n + 1)).db.activeBindings zoneId ≠
    (w.servedBefore registeredProviders keyProvider arrivals n).db.activeBindings zoneId

/-- Execute a command after the requests that are served right before it. -/
def handleServing (env : Env) (arrivals : Arrivals) :
    (c : Cmd) → World × Nat → c.Reply × (World × Nat) :=
  Prog.interfere (fun n w => (arrivals n).foldl (World.serve registeredProviders keyProvider) w)
    (handle env)

/-- The tables `create_provider` reads and writes, and the items. -/
def Database.shared (db : Database) :
    Table Zone Zone.id × Table ProviderBinding ProviderBinding.id ×
      Table ChangesetItem ChangesetItem.key :=
  (db.zones, db.bindings, db.changesetItems)

omit [CryptoLib] [SerdeJson] in
theorem shared_insertBinding (db : Database) (row : ProviderBinding) :
    (db.insertBinding row).map Database.shared =
      match db.bindings.insert row with
      | none => .error (.primaryKey "provider_bindings.id")
      | some bindings =>
        if row.zoneId ∈ db.zones.keys then .ok (db.zones, bindings, db.changesetItems)
        else .error .foreignKey := by
  unfold Database.insertBinding
  split
  · next h => rw [h]; rfl
  · next bindings h =>
    by_cases hz : row.zoneId ∈ db.zones.keys
    · rw [dif_pos hz]
      change Except.ok (db.zones, bindings, db.changesetItems) = _
      rw [h]
      exact (if_pos hz).symm
    · rw [dif_neg hz, h]
      exact (if_neg hz).symm

omit [CryptoLib] [SerdeJson] in
private theorem map_dbErr {α β : Type} (f : α → β) (x : Except Violation α) :
    (dbErr x).map f = dbErr (x.map f) := by
  cases x <;> rfl

/-- What a request does to these tables depends on them alone. -/
theorem shared_createProvider {db db' : Database} (h : db.shared = db'.shared)
    (draws : ProviderDraws) (body : CreateProviderRequest) :
    (createProvider registeredProviders keyProvider db draws body).map Database.shared =
      (createProvider registeredProviders keyProvider db' draws body).map Database.shared := by
  obtain ⟨hz, hb, hi⟩ : db.zones = db'.zones ∧ db.bindings = db'.bindings ∧
      db.changesetItems = db'.changesetItems := by simpa [Database.shared] using h
  have hrow : ∀ row, (db.insertBinding row).map Database.shared =
      (db'.insertBinding row).map Database.shared := fun row => by
    rw [shared_insertBinding, shared_insertBinding, hz, hb, hi]
  -- the request is checked against the zones and writes one binding
  unfold createProvider
  rw [hz]
  cases validateProviderRequest registeredProviders body with
  | error e => rfl
  | ok _ =>
  by_cases hnone : (db'.zones.find? body.zoneId).isNone
  · simp only [if_pos hnone]
    rfl
  · simp only [if_neg hnone]
    cases bindingRow keyProvider draws body with
    | error e => rfl
    | ok row =>
      change (dbErr (db.insertBinding row)).map Database.shared =
        (dbErr (db'.insertBinding row)).map Database.shared
      rw [map_dbErr, map_dbErr, hrow]

/-- A request that is accepted inserts a binding. -/
theorem createProvider_ok {db db' : Database} {draws : ProviderDraws}
    {body : CreateProviderRequest}
    (h : createProvider registeredProviders keyProvider db draws body = .ok db') :
    ∃ row, db.insertBinding row = .ok db' := by
  unfold createProvider at h
  obtain ⟨_, -, h⟩ := Except.bind_eq_ok.mp h
  split at h
  · cases h
  obtain ⟨row, -, h⟩ := Except.bind_eq_ok.mp h
  exact ⟨row, Except.mapError_eq_ok.mp h⟩

theorem items_serve (w : World) (request : ProviderDraws × CreateProviderRequest) :
    (w.serve registeredProviders keyProvider request).db.changesetItems = w.db.changesetItems := by
  unfold World.serve
  split
  · next db h =>
    obtain ⟨row, hrow⟩ := createProvider_ok registeredProviders keyProvider h
    exact (Database.insertBinding_ok hrow).2.2
  · rfl

theorem contents_serve (w : World) (request : ProviderDraws × CreateProviderRequest) :
    (w.serve registeredProviders keyProvider request).contents = w.contents := by
  unfold World.serve
  split <;> rfl

/-- A part of the world that no request changes. -/
private theorem foldl_serve_frame {β : Type} {f : World → β}
    (hf : ∀ w request, f (World.serve registeredProviders keyProvider w request) = f w)
    (requests : List (ProviderDraws × CreateProviderRequest)) (w : World) :
    f (requests.foldl (World.serve registeredProviders keyProvider) w) = f w := by
  induction requests generalizing w with
  | nil => rfl
  | cons request requests ih => rw [List.foldl_cons, ih, hf]

theorem shared_serve {w w' : World} (h : w.db.shared = w'.db.shared)
    (request : ProviderDraws × CreateProviderRequest) :
    (w.serve registeredProviders keyProvider request).db.shared =
      (w'.serve registeredProviders keyProvider request).db.shared := by
  have hmap := shared_createProvider registeredProviders keyProvider h request.1 request.2
  unfold World.serve
  -- the two databases both accept the request or both refuse it
  split
  · next db hdb =>
    rw [hdb] at hmap
    split
    · next db' hdb' =>
      rw [hdb'] at hmap
      exact Except.ok.inj hmap
    · next e he =>
      rw [he] at hmap
      cases hmap
  · next e he =>
    rw [he] at hmap
    split
    · next db' hdb' =>
      rw [hdb'] at hmap
      cases hmap
    · exact h

theorem shared_foldl_serve {w w' : World} (h : w.db.shared = w'.db.shared)
    (requests : List (ProviderDraws × CreateProviderRequest)) :
    (requests.foldl (World.serve registeredProviders keyProvider) w).db.shared =
      (requests.foldl (World.serve registeredProviders keyProvider) w').db.shared := by
  induction requests generalizing w w' with
  | nil => exact h
  | cons request requests ih =>
    rw [List.foldl_cons, List.foldl_cons]
    exact ih (shared_serve registeredProviders keyProvider h request)

omit [CryptoLib] [SerdeJson] in
/-- A command of the worker leaves these tables, and every provider key but its target. -/
theorem handle_frame (env : Env) (c : Cmd) (w : World) :
    (handle env c w).2.db.shared = w.db.shared ∧
      ∀ b key, c.target ≠ some (b, key) → (handle env c w).2.contents b key = w.contents b key := by
  refine ⟨?_, fun b key hne => ?_⟩
  · rcases handle_db env c w with hdb | ⟨id, guard, status, now, hdb⟩
    · rw [hdb]
    · rw [hdb]
      rfl
  -- only calls write to a provider, and each to its own key
  cases c with
  | instant => rfl
  | updateStatus id source target =>
    simp only [handle, updateStatusWhere]
    split
    · rfl
    · split <;> rfl
  | txUpdate id target snapshot =>
    simp only [handle, updateStatusTx]
    split
    · rfl
    · split <;> rfl
  | upsertRecord binding creds record =>
    have hother : (binding.id, record.key) ≠ (b, key) := mt (congrArg some) hne
    exact w.contents_call_of_ne env hother (some record)
  | deleteRecord binding creds key' =>
    have hother : (binding.id, key') ≠ (b, key) := mt (congrArg some) hne
    exact w.contents_call_of_ne env hother none
  | _ => simp only [handle, World.contents_query]

/-! ## The rollback's footprint -/

variable (worker : ReconcileWorker) (env : Env) (arrivals : Arrivals)

/-- The commands of `apply_single_changeset` among the requests. -/
def servingTrace (w : World) (id rollbackPolicy : String) : List Cmd :=
  (worker.applySingleChangeset id rollbackPolicy).trace
    (handleServing registeredProviders keyProvider env arrivals) (w, 0)

/-- No request binds a zone after the apply has read its bindings and before the rollback has. -/
def Undisturbed (w : World) (id : String) (cmds : List Cmd) : Prop :=
  ∀ pre post, cmds = pre ++ startRollback id :: post → ∀ zoneId k m,
    pre[k]? = some (.selectActiveBindings zoneId) →
    post[m]? = some (.selectActiveBindings zoneId) →
    ∀ n, k < n → n ≤ pre.length + 1 + m →
      ¬ BindsBefore registeredProviders keyProvider arrivals w zoneId n

/-- The worker's database and the one the requests alone make agree on these tables. -/
private theorem exists_state_serving {w : World} {p : WorkerM Unit} {i : Nat} {c : Cmd}
    {r : c.Reply}
    (hi : (p.events (handleServing registeredProviders keyProvider env arrivals) (w, 0))[i]? =
      some ⟨c, r⟩) :
    ∃ w' : World, r = (handle env c w').1 ∧ w'.db.shared =
      (w.servedBefore registeredProviders keyProvider arrivals (i + 1)).db.shared := by
  obtain ⟨⟨w', n⟩, ⟨rfl, hshared⟩, hr⟩ := Prog.exists_state_of_events
    (I := fun n s => s.2 = n ∧ s.1.db.shared =
      (w.servedBefore registeredProviders keyProvider arrivals n).db.shared)
    (fun n c s hs => ⟨congrArg (· + 1) hs.1, by
      obtain ⟨w', n'⟩ := s
      obtain ⟨rfl, hs⟩ := hs
      exact (handle_frame env c _).1.trans (shared_foldl_serve registeredProviders keyProvider hs _)⟩)
    (n := 0) ⟨rfl, rfl⟩ hi
  -- the requests right before the command are served first
  refine ⟨_, hr, ?_⟩
  rw [Nat.zero_add] at hshared ⊢
  exact shared_foldl_serve registeredProviders keyProvider hshared _

/-- The bindings a command was shown are those of the requests before it. -/
theorem shown_bindings {w : World} {p : WorkerM Unit} {i : Nat} {zoneId : String}
    {bs : List ProviderBinding}
    (hi : (p.events (handleServing registeredProviders keyProvider env arrivals) (w, 0))[i]? =
      some ⟨.selectActiveBindings zoneId, .ok bs⟩) :
    bs = (w.servedBefore registeredProviders keyProvider arrivals (i + 1)).db.activeBindings
      zoneId := by
  obtain ⟨w', hr, hshared⟩ := exists_state_serving registeredProviders keyProvider env arrivals hi
  rw [World.query_eq_ok hr.symm]
  exact congrArg (fun t => t.2.1.select fun b => b.zoneId == zoneId && b.status == .active) hshared

theorem items_servedBefore (w : World) (n : Nat) :
    (w.servedBefore registeredProviders keyProvider arrivals n).db.changesetItems =
      w.db.changesetItems := by
  induction n with
  | zero => rfl
  | succ n ih =>
    exact (foldl_serve_frame registeredProviders keyProvider (f := (·.db.changesetItems))
      (items_serve registeredProviders keyProvider) (arrivals n) _).trans ih

/-- The items a command was shown are those from the start. -/
theorem shown_items {w : World} {p : WorkerM Unit} {i : Nat} {id : String}
    {items : List ChangesetItem}
    (hi : (p.events (handleServing registeredProviders keyProvider env arrivals) (w, 0))[i]? =
      some ⟨.selectItems id, .ok items⟩) : items = w.db.items id := by
  obtain ⟨w', hr, hshared⟩ := exists_state_serving registeredProviders keyProvider env arrivals hi
  have hitems : w'.db.changesetItems = w.db.changesetItems :=
    (congrArg (·.2.2) hshared).trans (items_servedBefore registeredProviders keyProvider arrivals w _)
  rw [World.query_eq_ok hr.symm]
  exact congrArg (fun t => t.select fun item => item.changesetId == id) hitems

/-- While no request binds a zone, its bindings are the same. -/
private theorem activeBindings_of_quiet {w : World} {zoneId : String} {k d : Nat}
    (hquiet : ∀ n, k < n → n ≤ k + d →
      ¬ BindsBefore registeredProviders keyProvider arrivals w zoneId n) :
    (w.servedBefore registeredProviders keyProvider arrivals (k + d + 1)).db.activeBindings zoneId =
      (w.servedBefore registeredProviders keyProvider arrivals (k + 1)).db.activeBindings zoneId := by
  induction d with
  | zero => rfl
  | succ d ih =>
    exact (not_not.mp (hquiet (k + (d + 1)) (by omega) (by omega))).trans
      (ih fun n hk hn => hquiet n hk (by omega))

/-- Undisturbed, the rollback is shown the bindings the apply was shown. -/
private theorem steady_of_undisturbed {w : World} {p : WorkerM Unit} {id : String}
    {pre post done : Log} {e : Sigma Cmd.Reply}
    (hE : p.events (handleServing registeredProviders keyProvider env arrivals) (w, 0) =
      pre ++ e :: post)
    (hquiet : Undisturbed registeredProviders keyProvider arrivals w id
      (pre.cmds ++ startRollback id :: post.cmds))
    (hdone : done <+: post) : Steady pre done := by
  intro zoneId bs bs' hread hread'
  obtain ⟨k, hk⟩ := List.mem_iff_getElem?.mp hread
  obtain ⟨m, hm⟩ := List.mem_iff_getElem?.mp (hdone.subset hread')
  have hlt : k < pre.length := (List.getElem?_eq_some_iff.mp hk).1
  -- the same readings by their positions in the whole run
  have hk' := shown_bindings registeredProviders keyProvider env arrivals
    (by rw [hE, List.getElem?_append_left hlt, hk])
  have hm' := shown_bindings (i := pre.length + 1 + m) registeredProviders keyProvider env arrivals
    (by rw [hE, List.getElem?_append_right (by omega), Nat.add_assoc, Nat.add_sub_cancel_left,
      Nat.add_comm 1, List.getElem?_cons_succ, hm])
  obtain ⟨d, hd⟩ : ∃ d, pre.length + 1 + m = k + d := ⟨pre.length + 1 + m - k, by omega⟩
  rw [hk', hm', hd]
  refine activeBindings_of_quiet registeredProviders keyProvider arrivals fun n hn hle => ?_
  refine hquiet pre.cmds post.cmds rfl zoneId k m ?_ ?_ n hn ?_
  · rw [List.getElem?_map, hk]; rfl
  · rw [List.getElem?_map, hm]; rfl
  · rw [List.length_map, hd]; exact hle

/-- The apply is shown items that keep their keys. -/
private theorem keysKept_of_events {w : World} {p : WorkerM Unit} {id : String} {pre : Log}
    {rest : Log} (hE : p.events (handleServing registeredProviders keyProvider env arrivals) (w, 0) =
      pre ++ rest)
    (hkeys : ∀ item ∈ w.db.items id, item.KeepsKey) : KeysKept id pre := by
  intro items hread
  obtain ⟨k, hk⟩ := List.mem_iff_getElem?.mp hread
  have hlt : k < pre.length := (List.getElem?_eq_some_iff.mp hk).1
  have hshown := shown_items registeredProviders keyProvider env arrivals
    (by rw [hE, List.getElem?_append_left hlt, hk])
  rw [hshown]
  exact hkeys

/-- Where no item renames its record and no request binds a zone between a reading of its
    bindings by the apply and one by the rollback, the rollback writes only keys the apply has
    written, and every key the apply has not written is as before. -/
theorem rollback_footprint {w : World} {id rollbackPolicy : String}
    (hkeys : ∀ item ∈ w.db.items id, item.KeepsKey)
    (hquiet : Undisturbed registeredProviders keyProvider arrivals w id
      (servingTrace registeredProviders keyProvider worker env arrivals w id rollbackPolicy))
    {pre post : List Cmd}
    (hsplit : servingTrace registeredProviders keyProvider worker env arrivals w id rollbackPolicy =
      pre ++ startRollback id :: post) :
    (∀ c ∈ post, ∀ t, c.target = some t → t ∈ targets pre) ∧
      ∀ b key, (b, key) ∉ targets pre →
        ((worker.applySingleChangeset id rollbackPolicy).run
          (handleServing registeredProviders keyProvider env arrivals) (w, 0)).2.1.contents b key =
            w.contents b key := by
  obtain ⟨preE, rest, hE, rfl, hrest⟩ := List.map_eq_append_iff.mp hsplit
  obtain ⟨e, postE, rfl, he, rfl⟩ := List.map_eq_cons_iff.mp hrest
  rw [hsplit] at hquiet
  have hfirst : ∀ c ∈ Log.cmds postE, ∀ t, c.target = some t → t ∈ targets (Log.cmds preE) := by
    intro c hc t ht
    obtain ⟨ev, hev, rfl⟩ := List.mem_map.mp hc
    obtain ⟨done, todo, hdone⟩ := List.append_of_mem hev
    have hev' : (worker.applySingleChangeset id rollbackPolicy).events
        (handleServing registeredProviders keyProvider env arrivals) (w, 0) =
          (preE ++ e :: done) ++ ev :: todo := by
      rw [hE, hdone, List.append_assoc]
      rfl
    have hsteady : Steady preE done := steady_of_undisturbed registeredProviders keyProvider env
      arrivals hE hquiet (hdone ▸ List.prefix_append _ _)
    have hkept : KeysKept id preE := keysKept_of_events registeredProviders keyProvider env arrivals
      hE hkeys
    exact (obeys_applySingleChangeset_footprint worker id rollbackPolicy).events _ hev' preE e done
      rfl he hsteady hkept t ht
  refine ⟨hfirst, fun b key hout => ?_⟩
  refine Prog.run_frame (f := fun s : World × Nat => s.1.contents b key) fun c hc s => ?_
  -- neither the apply nor the rollback writes the key
  have htarget : c.target ≠ some (b, key) := by
    intro ht
    have hmem : c ∈ Log.cmds preE ++ startRollback id :: Log.cmds postE := hsplit ▸ hc
    rcases List.mem_append.mp hmem with hc | hc
    · exact hout (List.mem_filterMap.mpr ⟨c, hc, ht⟩)
    · rcases List.mem_cons.mp hc with rfl | hc
      · cases ht
      · exact hout (hfirst c hc _ ht)
  exact ((handle_frame env c _).2 b key htarget).trans
    (foldl_serve_frame registeredProviders keyProvider (f := (·.contents b key))
      (fun w' request => by rw [contents_serve]) (arrivals s.2) s.1)

end Requests

section Sample

open Sample

/-- A validated change set that creates `www` and `api`, when the provider of `b3` already
    serves its own `www`. -/
private def racedWorld : World :=
  { db := (created [item "r1" "create" none (some (www "192.0.2.1")),
        item "r2" "create" none (some api)]
      (by decide +kernel)).setStatus "c1" (fun _ => true) .validated "2024-01-15T12:31:00+00:00"
    contents := fun b key =>
      if b = "b3" ∧ key = ⟨"www", .a⟩ then some (www "192.0.2.2") else none }

/-- The provider call with the given number is refused. -/
private def refusedAt (call : Nat) : Env :=
  env fun n => if n = call then .refused .rateLimitExceeded else .ok

/-- The zone is bound to a third provider right before the command with the given number. -/
private def bindsAt (cmd : Nat) : Arrivals := fun n =>
  if n = cmd then
    [(⟨"b3", "2024-01-15T12:34:56+00:00", dek, bytes 0 12, bytes 12 12⟩,
      ⟨"z1", "route53", "Z3", credentialsText⟩)]
  else []

/-- The commands on the zone that is bound right before the command with the given number. -/
private def racedTrace (call cmd : Nat) : List Cmd :=
  servingTrace ["route53"] ⟨.ok kek⟩ worker (refusedAt call) (bindsAt cmd) racedWorld "c1" "auto"

/-- The provider contents after these commands. -/
private def racedContents (call cmd : Nat) : Contents :=
  ((worker.applySingleChangeset "c1" "auto").run
    (handleServing ["route53"] ⟨.ok kek⟩ (refusedAt call) (bindsAt cmd)) (racedWorld, 0)).2.1.contents

/-- The binding comes when the first item was applied on `b1` and `b2` and the second has
    failed. The rollback then deletes the record `www` that the new provider zone already had. -/
theorem rollback_deletes_foreign :
    racedTrace 2 10 = (racedTrace 2 10).take 11 ++ startRollback "c1" :: (racedTrace 2 10).drop 12 ∧
      ("b3", ⟨"www", .a⟩) ∈ targets ((racedTrace 2 10).drop 12) ∧
      ("b3", ⟨"www", .a⟩) ∉ targets ((racedTrace 2 10).take 11) ∧
      racedWorld.contents "b3" ⟨"www", .a⟩ = some (www "192.0.2.2") ∧
      racedContents 2 10 "b3" ⟨"www", .a⟩ = none := by
  decide +kernel

private theorem undisturbed_bindsAt_zero (cmds : List Cmd) :
    Undisturbed ["route53"] ⟨.ok kek⟩ (bindsAt 0) racedWorld "c1" cmds := by
  intro pre post _ zoneId k m _ _ n hk _ hbinds
  obtain ⟨n, rfl⟩ := Nat.exists_eq_succ_of_ne_zero (Nat.ne_zero_of_lt hk)
  exact hbinds rfl

/-- A binding that comes before the first reading is applied to and rolled back like the others. -/
theorem rollback_footprint_bound :
    (∀ c ∈ (racedTrace 3 0).drop 13, ∀ t, c.target = some t →
        t ∈ targets ((racedTrace 3 0).take 12)) ∧
      ∀ b key, (b, key) ∉ targets ((racedTrace 3 0).take 12) →
        racedContents 3 0 b key = racedWorld.contents b key := by
  have hops : ∀ item ∈ racedWorld.db.items "c1", item.operation ≠ "update" := by decide +kernel
  have hsplit : racedTrace 3 0 =
      (racedTrace 3 0).take 12 ++ startRollback "c1" :: (racedTrace 3 0).drop 13 := by decide +kernel
  exact rollback_footprint ["route53"] ⟨.ok kek⟩ worker (refusedAt 3) (bindsAt 0)
    (fun item hitem hupdate => absurd hupdate (hops item hitem)) (undisturbed_bindsAt_zero _) hsplit

end Sample

end DnsManager

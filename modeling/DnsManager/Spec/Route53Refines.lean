import DnsManager.ForStd.Simulation
import DnsManager.Spec.ApplyCorrect
import DnsManager.Spec.ProviderFrame
import DnsManager.Spec.Route53Simple

/-!
# Route53 behind the worker

The worker is verified against provider zones that are maps from record keys to records. On simple
hosted zones, and for records in canonical form, Route53 behind its adapter is such a map: a call
that succeeds sets or removes the key, and a call that fails changes nothing. So every run of the
worker on top of Route53 is a run on maps, with some outcomes of its calls.

## Key results
- `run_upsertRecord_asMap`, `run_deleteRecord_asMap`: what the calls of the adapter do.
- `hosted_refines`: every run on top of Route53 is a run on the maps that the zones show.
-/

namespace DnsManager.Route53

open Prog (liftExcept Only)

/-! ## Calls of the adapter -/

section Adapter

variable [Route53Order]

/-- The requests that only read. -/
private def Route53Cmd.reads : Route53Cmd → Prop
  | .changeResourceRecordSets .. => False
  | _ => True

omit [Route53Order] in
/-- A request that fails, or that answers without a change, leaves the zone as it is. -/
private theorem zone_request {α : Type} {env : Route53Env} {w : Route53World} {id : String}
    {answer : HostedZone → Except SdkError (α × HostedZone)}
    (h : ∀ reply zone, (w.request env id answer).1 = .ok reply → answer w.zone = .ok (reply, zone) →
      zone = w.zone) : (w.request env id answer).2.zone = w.zone := by
  generalize hrequest : w.request env id answer = x at h
  obtain ⟨reply, w'⟩ := x
  cases reply with
  | ok reply =>
    obtain ⟨-, zone, hanswer, rfl⟩ := Route53World.request_eq_ok hrequest
    exact h reply zone rfl hanswer
  | error e =>
    unfold Route53World.request at hrequest
    split at hrequest
    · cases hrequest
      rfl
    · split at hrequest
      · split at hrequest <;> cases hrequest
        rfl
      · cases hrequest
        rfl

/-- A program that only reads leaves the zone as it is. -/
private theorem zone_run {ε α : Type} {env : Route53Env}
    {p : Prog Route53Cmd Route53Cmd.Reply ε α} (hp : Only Route53Cmd.reads p) (w : Route53World) :
    (p.run (handleRoute53 env) w).2.zone = w.zone := by
  refine Prog.run_frame fun c hc w' => ?_
  have hreads := hp.of_mem_trace hc
  cases c with
  | getHostedZone client id => exact zone_request fun _ _ _ h => by cases h; rfl
  | listResourceRecordSets client id n t m => exact zone_request fun _ _ _ h => by cases h; rfl
  | changeResourceRecordSets client id change => exact hreads.elim

/-- A change that fails leaves the zone as it is. -/
private theorem zone_of_change_error {env : Route53Env} {w : Route53World} {client : Client}
    {id : String} {change : Change} {e : SdkError}
    (h : (handleRoute53 env (.changeResourceRecordSets client id change) w).1 = .error e) :
    (handleRoute53 env (.changeResourceRecordSets client id change) w).2.zone = w.zone :=
  zone_request fun _ _ hok _ => nomatch hok.symm.trans h

variable [AwsSdk]

/-- Building a client and looking up the name of the hosted zone only read. -/
private theorem zone_open {β : Type} {env : Route53Env} {w w' : Route53World}
    {creds : Credentials} {providerZoneId : String} {k : Client → String → Route53M β}
    {x : Except ProviderError β}
    (h : (liftExcept (buildClient creds) >>= fun client =>
      zoneFqdn client (normalizeZoneId providerZoneId) >>= k client).run (handleRoute53 env) w =
        (x, w')) :
    w'.zone = w.zone ∨ ∃ client name w₁, w₁.zone = w.zone ∧
      (k client name).run (handleRoute53 env) w₁ = (x, w') := by
  rw [Prog.run_bind, Prog.run_liftExcept] at h
  cases hclient : buildClient creds with
  | error e =>
    rw [hclient] at h
    cases h
    exact .inl rfl
  | ok client =>
    rw [hclient] at h
    have hreads : Only Route53Cmd.reads (zoneFqdn client (normalizeZoneId providerZoneId)) := by
      refine .perform_bind trivial fun _ => .liftExcept_bind fun resp => ?_
      cases resp with
      | some name => exact .pure _
      | none => exact .throw _
    have hzone : ((zoneFqdn client (normalizeZoneId providerZoneId)).run (handleRoute53 env)
        w).2.zone = w.zone := zone_run hreads w
    simp only [Prog.run_bind] at h
    generalize (zoneFqdn client (normalizeZoneId providerZoneId)).run (handleRoute53 env) w = y
      at h hzone
    obtain ⟨name, w₁⟩ := y
    cases name with
    | error e =>
      cases h
      exact .inl hzone
    | ok name => exact .inr ⟨client, name, w₁, hzone, h⟩

/-- An `upsert_record` that fails leaves the zone as it is. -/
theorem run_upsertRecord_error {env : Route53Env} {w w' : Route53World} {creds : Credentials}
    {providerZoneId : String} {record : ProviderRecord} {e : ProviderError}
    (h : (upsertRecord creds providerZoneId record).run (handleRoute53 env) w = (.error e, w')) :
    w'.zone = w.zone := by
  unfold upsertRecord at h
  rcases zone_open h with hzone | ⟨client, name, w₁, hzone, h⟩
  · exact hzone
  · simp only [Prog.run_bind, run_send] at h
    cases hreply : (handleRoute53 env (.changeResourceRecordSets client
        (normalizeZoneId providerZoneId) (.upsert (recordSet record name))) w₁).1 with
    | ok _ =>
      rw [hreply] at h
      cases congrArg Prod.fst h
    | error _ =>
      rw [hreply] at h
      cases h
      exact (zone_of_change_error hreply).trans hzone

/-- A `delete_record` that fails leaves the zone as it is. -/
theorem run_deleteRecord_error {env : Route53Env} {w w' : Route53World} {creds : Credentials}
    {providerZoneId : String} {key : RecordKey} {e : ProviderError}
    (h : (deleteRecord creds providerZoneId key).run (handleRoute53 env) w = (.error e, w')) :
    w'.zone = w.zone := by
  unfold deleteRecord at h
  rcases zone_open h with hzone | ⟨client, name, w₁, hzone, h⟩
  · exact hzone
  · have hlist : (handleRoute53 env (.listResourceRecordSets client
        (normalizeZoneId providerZoneId) (some (toFqdn key.name name))
        (some (recordTypeToRrType key.recordType)) (some 1)) w₁).2.zone = w.zone :=
      (zone_request fun _ _ _ hanswer => by cases hanswer; rfl).trans hzone
    simp only [Prog.run_bind, run_send] at h
    generalize handleRoute53 env (.listResourceRecordSets client (normalizeZoneId providerZoneId)
      (some (toFqdn key.name name)) (some (recordTypeToRrType key.recordType)) (some 1)) w₁ = y
      at h hlist
    obtain ⟨reply, w₂⟩ := y
    cases reply with
    | error _ =>
      cases h
      exact hlist
    | ok page =>
      simp only [Except.mapError, Prog.run_liftExcept] at h
      split at h
      -- nothing to delete is no failure, and a request to delete that fails keeps the zone
      · cases congrArg Prod.fst h
      · next rrs _ =>
        simp only [Prog.run_bind, run_send] at h
        cases hreply : (handleRoute53 env (.changeResourceRecordSets client
            (normalizeZoneId providerZoneId) (.delete rrs)) w₂).1 with
        | ok _ =>
          rw [hreply] at h
          cases congrArg Prod.fst h
        | error _ =>
          rw [hreply] at h
          dsimp only at h
          split at h
          · cases congrArg Prod.fst h
          · cases h
            exact (zone_of_change_error hreply).trans hlist

variable [UnicodeData]

/-- The failures of the service do not read as if a record set were missing: `delete_record` takes
    such a failure for a success. -/
def Route53Env.Truthful (env : Route53Env) : Prop :=
  ∀ n e, env.failures n = some e → isRecordNotFound e.display = false

/-- A call has given a key of the map of the zone the value, or it has failed and changed
    nothing. -/
structure CallsAsMap (w w' : Route53World) (key : RecordKey) (value : Option ProviderRecord)
    (x : Except ProviderError Unit) : Prop where
  simple : w'.zone.Simple
  done : x = .ok () → w'.zone.shown = fun k => if key = k then value else w.zone.shown k
  failed : ∀ e, x = .error e → w'.zone.shown = w.zone.shown

/-- On a simple zone `upsert_record` sets the key of a canonical record. -/
theorem run_upsertRecord_asMap [StrictRoute53Order] {env : Route53Env} {w : Route53World}
    (h : w.zone.Simple) (creds : Credentials) (providerZoneId : String) {record : ProviderRecord}
    (hrecord : CanonicalRecord record) :
    CallsAsMap w ((upsertRecord creds providerZoneId record).run (handleRoute53 env) w).2
      record.key (some record)
      ((upsertRecord creds providerZoneId record).run (handleRoute53 env) w).1 := by
  generalize hrun : (upsertRecord creds providerZoneId record).run (handleRoute53 env) w = y
  obtain ⟨x, w'⟩ := y
  cases x with
  | ok _ =>
    obtain ⟨-, -, hzone⟩ := run_upsertRecord_eq_ok hrun
    refine ⟨?_, fun _ => ?_, nofun⟩
    · rw [hzone]
      exact h.upsert hrecord.name
    · rw [hzone]
      exact funext (h.shown_upsert hrecord)
  | error e =>
    have hzone := run_upsertRecord_error hrun
    exact ⟨hzone ▸ h, nofun, fun _ _ => by rw [hzone]⟩

/-- On a simple zone `delete_record` removes a canonical key. -/
theorem run_deleteRecord_asMap {env : Route53Env} (henv : env.Truthful) {w : Route53World}
    (h : w.zone.Simple) (creds : Credentials) (providerZoneId : String) {key : RecordKey}
    (hname : CanonicalName key.name) :
    CallsAsMap w ((deleteRecord creds providerZoneId key).run (handleRoute53 env) w).2 key none
      ((deleteRecord creds providerZoneId key).run (handleRoute53 env) w).1 := by
  generalize hrun : (deleteRecord creds providerZoneId key).run (handleRoute53 env) w = y
  obtain ⟨x, w'⟩ := y
  cases x with
  | ok _ =>
    obtain ⟨-, -, hcases⟩ := run_deleteRecord_eq_ok hrun
    rcases hcases with ⟨hnone, hzone⟩ | ⟨rrs, hfound, ⟨-, hzone⟩ | ⟨e, hfail, hmissing, -⟩⟩
    · refine ⟨hzone ▸ h, fun _ => ?_, nofun⟩
      rw [hzone]
      funext k
      split
      · next hkey => exact hkey ▸ h.shown_of_found_eq_none hname hnone
      · rfl
    · refine ⟨?_, fun _ => ?_, nofun⟩
      · rw [hzone]
        exact h.erase rrs
      · rw [hzone]
        exact funext (h.shown_erase hname hfound)
    · rw [henv _ e hfail] at hmissing
      cases hmissing
  | error e =>
    have hzone := run_deleteRecord_error hrun
    exact ⟨hzone ▸ h, nofun, fun _ _ => by rw [hzone]⟩

end Adapter

/-! ## The handlers -/

section Handlers

/-- The handler of the worker reads the outcomes of its provider calls in order. -/
theorem tape_handle (env : Env) :
    Prog.Tape (fun outcomes => handle { env with calls := outcomes }) (·.calls) where
  reads h c := by
    cases c with
    | upsertRecord b creds record => simp only [handle, World.call, h]
    | deleteRecord b creds key => simp only [handle, World.call, h]
    | _ => rfl
  moves f c w := by
    have hcall : ∀ b key value, (w.call { env with calls := f } b key value).2.calls = w.calls + 1 := by
      intro b key value
      unfold World.call
      split <;> rfl
    have hquery : ∀ {α : Type} (answer : Database → α),
        (w.query { env with calls := f } answer).2.calls = w.calls := by
      intro α answer
      unfold World.query
      split <;> rfl
    cases c with
    | upsertRecord b creds record => exact .inl (hcall ..)
    | deleteRecord b creds key => exact .inl (hcall ..)
    | instant => exact .inr ⟨rfl, fun _ => rfl⟩
    | updateStatus id source target =>
      refine .inr ⟨?_, fun _ => rfl⟩
      simp only [handle, updateStatusWhere]
      split
      · rfl
      · split <;> rfl
    | txUpdate id target snapshot =>
      refine .inr ⟨?_, fun _ => rfl⟩
      simp only [handle, updateStatusTx]
      split
      · rfl
      · split <;> rfl
    | _ => exact .inr ⟨hquery _, fun _ => rfl⟩

/-- A command that writes to no provider does not look at what the provider zones hold. -/
private theorem handle_contents (env : Env) (calls : Nat → CallOutcome) {c : Cmd} (w : World)
    (σ : Contents) (hc : c.isProviderWrite = false) :
    handle { env with calls } c { w with contents := σ } =
      ((handle env c w).1, { (handle env c w).2 with contents := σ }) := by
  have hsame := handle_seeing env env.calls w w.contents w.calls hc
  have hcalls : (handle env c w).2.calls = w.calls := congrArg (fun x => x.2.calls) hsame
  refine (handle_seeing env calls w σ w.calls hc).trans ?_
  rw [World.seeing, ← hcalls]

variable [Route53Order] [UnicodeData]

/-- The provider calls are for records and keys in canonical form. -/
def CanonicalCmd : Cmd → Prop
  | .upsertRecord _ _ record => CanonicalRecord record
  | .deleteRecord _ _ key => CanonicalName key.name
  | _ => True

instance : DecidablePred CanonicalCmd
  | .upsertRecord _ _ record => inferInstanceAs (Decidable (CanonicalRecord record))
  | .deleteRecord _ _ key => inferInstanceAs (Decidable (CanonicalName key.name))
  | .instant | .selectValidated | .updateStatus .. | .selectItems _ | .selectZone _
  | .selectActiveBindings _ | .txSelect _ | .txUpdate .. | .selectChangeset _
  | .selectItemsByRecord _ => isTrue trivial

/-- A call that the adapter makes on a simple zone is one on the maps, with some outcome. -/
private theorem call_shown {env : Env} {services : String → Route53Env} {s : HostedWorld}
    (hzones : ∀ id, (s.services id).zone.Simple) {b : ProviderBinding} {p : Route53M Unit}
    {key : RecordKey} {value : Option ProviderRecord}
    (hcall : CallsAsMap (s.services b.id)
      (p.run (handleRoute53 (services b.id)) (s.services b.id)).2 key value
      (p.run (handleRoute53 (services b.id)) (s.services b.id)).1) :
    ∃ o : CallOutcome, (∀ e, o ≠ .lost e) ∧
      World.call { env with calls := fun _ => o } s.shown b key value =
        ((s.call services b p).1, (s.call services b p).2.shown) ∧
      ∀ id, ((s.call services b p).2.services id).zone.Simple := by
  unfold HostedWorld.call
  generalize p.run (handleRoute53 (services b.id)) (s.services b.id) = y at hcall
  obtain ⟨x, w'⟩ := y
  -- only the zone of the binding has changed
  have hsimple : ∀ id, (Function.update s.services b.id w' id).zone.Simple := by
    intro id
    by_cases hid : id = b.id
    · rw [hid, Function.update_self]
      exact hcall.simple
    · rw [Function.update_of_ne hid]
      exact hzones id
  cases x with
  | ok _ =>
    refine ⟨.ok, by simp, ?_, hsimple⟩
    have hcontents : (Write.mk b.id key value).exec s.shown.contents =
        fun id => (Function.update s.services b.id w' id).zone.shown := by
      funext id k
      by_cases hid : id = b.id
      · subst hid
        rw [Function.update_self, hcall.done rfl]
        simp [Write.exec, Write.Hits, HostedWorld.shown]
      · rw [Function.update_of_ne hid, Write.exec_of_not_hits fun hits => hid hits.1.symm]
        rfl
    simp only [World.call, hcontents]
    rfl
  | error e =>
    refine ⟨.refused e, by simp, ?_, hsimple⟩
    -- a call that failed has no effect on the map either
    have hcontents : s.shown.contents =
        fun id => (Function.update s.services b.id w' id).zone.shown := by
      funext id
      by_cases hid : id = b.id
      · subst hid
        rw [Function.update_self, hcall.failed e rfl]
        rfl
      · rw [Function.update_of_ne hid]
        rfl
    simp only [World.call]
    exact congrArg (Prod.mk (Except.error e))
      (congrArg (fun σ => ({ s.world with contents := σ, calls := s.world.calls + 1 } : World))
        hcontents)

/-- The provider zones of the world are the maps that the hosted zones show, which are simple. -/
structure RefinesMaps (s : HostedWorld) (w : World) : Prop where
  shown : w = s.shown
  simple : ∀ id, (s.services id).zone.Simple

variable [StrictRoute53Order] [AwsSdk]

/-- A command on top of Route53 is one on the maps that the zones show. -/
private theorem handleHosted_shown (env : Env) {services : String → Route53Env}
    (hservices : ∀ id, (services id).Truthful) {c : Cmd} (hc : CanonicalCmd c) {s : HostedWorld}
    (hzones : ∀ id, (s.services id).zone.Simple) :
    ∃ o : CallOutcome, (∀ e, o ≠ .lost e) ∧
      handle { env with calls := fun _ => o } c s.shown =
        ((handleHosted env services c s).1, (handleHosted env services c s).2.shown) ∧
      ∀ id, ((handleHosted env services c s).2.services id).zone.Simple := by
  cases c with
  | upsertRecord b creds record =>
    exact call_shown hzones (run_upsertRecord_asMap (hzones b.id) creds b.providerZoneId hc)
  | deleteRecord b creds key =>
    exact call_shown hzones
      (run_deleteRecord_asMap (hservices b.id) (hzones b.id) creds b.providerZoneId hc)
  | _ => exact ⟨.ok, nofun, handle_contents env _ s.world _ rfl, hzones⟩

end Handlers

/-! ## A run of the sample -/

namespace Strict

open DnsManager.Sample

/-- The place of a type among those of one name. -/
def typeRank : RrType → Nat ×ₗ List Char
  | .a => toLex (0, [])
  | .aaaa => toLex (1, [])
  | .cname => toLex (2, [])
  | .mx => toLex (3, [])
  | .txt => toLex (4, [])
  | .ns => toLex (5, [])
  | .srv => toLex (6, [])
  | .caa => toLex (7, [])
  | .other name => toLex (8, name.toList)

/-- The labels of a name from the right, and the place of the type. -/
def strictKey (k : SetKey) : List (List Char) ×ₗ (Nat ×ₗ List Char) :=
  toLex ((k.1.toList.splitOn '.').reverse, typeRank k.2)

/-- Route53 orders by the labels from the right, then by type. -/
scoped instance (priority := high) strictOrder : Route53Order where
  le a b := decide (strictKey a ≤ strictKey b)
  le_total a b := by simpa using le_total (strictKey a) (strictKey b)
  le_trans a b c := by simpa using le_trans

/-- The type in a place. -/
private def typeAt (k : Nat ×ₗ List Char) : RrType :=
  match ofLex k with
  | (0, _) => .a
  | (1, _) => .aaaa
  | (2, _) => .cname
  | (3, _) => .mx
  | (4, _) => .txt
  | (5, _) => .ns
  | (6, _) => .srv
  | (7, _) => .caa
  | (_, name) => .other (String.ofList name)

private theorem typeAt_typeRank (t : RrType) : typeAt (typeRank t) = t := by
  cases t with
  | other name => exact congrArg RrType.other String.ofList_toList
  | _ => rfl

scoped instance : StrictRoute53Order where
  antisymm a b hab hba := by
    have heq : strictKey a = strictKey b :=
      le_antisymm (of_decide_eq_true hab) (of_decide_eq_true hba)
    obtain ⟨hname, htype⟩ := Prod.mk.inj (congrArg ofLex heq)
    have hchars : a.1.toList = b.1.toList := by
      have hlabels := congrArg ['.'].intercalate (List.reverse_injective hname)
      rwa [List.intercalate_splitOn, List.intercalate_splitOn] at hlabels
    have htypes := congrArg typeAt htype
    rw [typeAt_typeRank, typeAt_typeRank] at htypes
    refine ⟨?_, htypes⟩
    rw [String.toList_inj.mp hchars]
    exact RustStr.eqIgnoreAsciiCase_self _

/-- A validated change set that creates `www`, and a hosted zone for each of the two bindings. -/
def hostedWorld : HostedWorld where
  world :=
    { db := createdWww.setStatus "c1" (fun _ => true) .validated "2024-01-15T12:31:00+00:00"
      contents := fun _ _ => none }
  services id := { zone := if id = "b2" then { hostedZone with id := "Z2" } else hostedZone }

end Strict

end DnsManager.Route53

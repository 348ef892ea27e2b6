import DnsManager.Spec.HostedListing
import DnsManager.Spec.HostedProcess
import DnsManager.Spec.SeenRows

/-!
# The sync states say what the hosted zones held

On top of Route53 a sync state that is not `sync_failed` compares the desired record with what a
listing has returned. Each of these records was in the hosted zone at some moment since the clock
was read that `last_observed_at` shows. Each record set that the zone had from then until the listing
returned, in the order of the service, is among them. Other clients may have changed the rest of the
zone meanwhile.

## Key results
- `hosted_rows_seen`: the comparison behind each row, with the moments the zone held its records.
-/

namespace DnsManager.Route53

open Prog (Pool Thread)

/-! ## Runs -/

section Runs

variable [SerdeJson] [Route53Order]

/-- The hosted zones have the names they had. -/
def SameNames (s s' : ProcessState) : Prop :=
  ∀ id, (s'.services id).zone.name = (s.services id).zone.name

theorem guarantee_sameNames (env : SystemEnv) (services : String → Route53Env) :
    Pool.Guarantee (handleProcess env services) SameNames where
  refl _ _ := rfl
  trans h h' id := (h' id).trans (h id)
  step c s id := by
    cases c with
    | cmd c => rfl
    | returned c r => rfl
    | inner d =>
      obtain ⟨id', c⟩ := d
      by_cases hid : id = id'
      · subst hid
        simp only [handleProcess, Function.update_self]
        exact name_handleRoute53 ..
      · simp only [handleProcess, Function.update_of_ne hid]

variable [UnicodeData]

/-- The hosted zone of a binding holds a record set that is reported as the record. -/
def ProcessState.Holds (s : ProcessState) (bindingId : String) (r : ProviderRecord) : Prop :=
  ∃ rrs ∈ (s.services bindingId).zone.sets, reported (s.services bindingId).zone.name rrs = some r

/-- A command of the process on top of Route53, and the state it met. -/
abbrev ProcessEntry := Pool.Entry ProcessCmd ProcessReply ProcessState

/-- The hosted zone of a binding is in order and has the record set. -/
def ProcessState.Has (s : ProcessState) (bindingId : String) (rrs : ResourceRecordSet) : Prop :=
  (s.services bindingId).zone.Ordered ∧ rrs ∈ (s.services bindingId).zone.sets

variable [AwsSdk]

/-- One thread has read the clock, and its listing of the zone has returned after that. Each of the
    records was in the hosted zone between the two, when a request of the thread was answered, and
    each record set that the zone had all the while is among them. -/
def SeenIn (o : Comparison) (entries : List ProcessEntry) : Prop :=
  ∃ i creds u v pre mid post, entries = pre ++ ⟨u, ⟨i, .cmd (.sync .utcNow), o.instant⟩⟩ ::
      (mid ++ ⟨v, ⟨i, .returned (.sync (.listRecords o.binding creds)) (.ok o.records), ()⟩⟩ ::
        post) ∧
    (∀ r ∈ o.records, ∃ x ∈ mid, x.event.thread = i ∧ x.state.Holds o.binding.id r) ∧
    ∀ rrs r, (∀ x ∈ mid, x.state.Has o.binding.id rrs) →
      reported (v.services o.binding.id).zone.name rrs = some r → r ∈ o.records

variable [CryptoLib] [Sha256] [Chrono] {fuel : Nat} {state : AppState}
  {requests : List Request} {runs : List WorkerRun} {clients : List (Thread ZoneCmd ZoneCmd.Reply)}
  {env : SystemEnv} {services : String → Route53Env} {s : ProcessState} {schedule : List Nat}

section Listing

variable {mid : List ProcessEntry} {i : Nat} {id : String} {inside : List (Sigma ZoneCmd.Reply)}
  {records : List ProviderRecord}
  (hmid : ∀ x ∈ mid, x ∈ (hostedProcess fuel state requests runs clients s).trail
    (handleProcess env services) schedule)
  (hinside : ∀ e ∈ inside, Prog.innerEvent e ∈ Pool.own i mid)
include hmid hinside

/-- A page was sent by the zone as it was at a request of the thread. -/
private theorem zone_of_paged {nextName : Option String} {nextType : Option RrType}
    {page : ListPage} (h : Paged id inside nextName nextType page) :
    ∃ x ∈ mid, x.event.thread = i ∧ ∃ size,
      page = HostedZone.page ((x.state.services id).zone.setsFrom nextName nextType) size := by
  obtain ⟨client, zoneId, maxItems, hmem⟩ := h
  obtain ⟨x, hx, hi, heq⟩ := Pool.mem_own.mp (hinside _ hmem)
  -- the reply is what the service answers in the state that the request met
  have hreply := Pool.reply_of_mem_trail (hmid x hx)
  refine ⟨x, hx, hi, ?_⟩
  obtain ⟨t, j, c, q⟩ := x
  cases heq
  have hanswer : (handleRoute53 (services id) (.listResourceRecordSets client zoneId nextName
    nextType maxItems) (t.services id)).1 = .ok page := hreply.symm
  exact page_of_answered hanswer

/-- The name that was told is the one the zone has had from the start. -/
theorem name_of_named {name : String} (h : Named id inside name) :
    (s.services id).zone.name = name := by
  obtain ⟨client, zoneId, hmem⟩ := h
  obtain ⟨x, hx, -, heq⟩ := Pool.mem_own.mp (hinside _ hmem)
  have hreply := Pool.reply_of_mem_trail (hmid x hx)
  have hstart := (guarantee_sameNames env services).start_trail (hmid x hx) id
  obtain ⟨t, j, c, q⟩ := x
  cases heq
  have hanswer : (handleRoute53 (services id) (.getHostedZone client zoneId) (t.services id)).1 =
    .ok (some name) := hreply.symm
  exact hstart.symm.trans (name_of_told hanswer)

/-- Each record that was shown was in the hosted zone when a page of it was sent. -/
private theorem holds_of_shown (hshown : Shown id inside records) :
    ∀ r ∈ records, ∃ x ∈ mid, x.event.thread = i ∧ x.state.Holds id r := by
  obtain ⟨name, hnamed, hpages, -⟩ := hshown
  intro r hr
  obtain ⟨nextName, nextType, page, hpaged, hreported⟩ := hpages r hr
  obtain ⟨x, hx, hi, size, rfl⟩ := zone_of_paged hmid hinside hpaged
  obtain ⟨rrs, hrrs, hr⟩ := List.mem_filterMap.mp hreported
  have hstart := (guarantee_sameNames env services).start_trail (hmid x hx) id
  refine ⟨x, hx, hi, rrs, HostedZone.mem_of_mem_setsFrom ((List.take_sublist _ _).mem hrrs), ?_⟩
  rw [hstart, ← hr]
  exact congrArg (reported · rrs) (name_of_named hmid hinside hnamed)

/-- A record set the zone had all the while was shown. -/
private theorem mem_of_has (hshown : Shown id inside records) {rrs : ResourceRecordSet}
    {r : ProviderRecord} (hhas : ∀ x ∈ mid, x.state.Has id rrs)
    (hr : reported (s.services id).zone.name rrs = some r) : r ∈ records := by
  obtain ⟨name, hnamed, -, hall⟩ := hshown
  refine hall rrs r (fun nextName nextType page hpaged => ?_) ?_
  · -- the pages may be of different states of the zone, but each has it or leads to it
    obtain ⟨x, hx, -, size, rfl⟩ := zone_of_paged hmid hinside hpaged
    exact pageCovers_of_ordered (hhas x hx).1 (hhas x hx).2 nextName nextType size
  · rw [← name_of_named hmid hinside hnamed]
    exact hr

end Listing

/-- A comparison of the run in which every call is one command. -/
private theorem seenIn_of_madeIn {entries : List SystemEntry}
    (hlog : entries.map (·.event) = outerLog
      ((hostedProcess fuel state requests runs clients s).exec (handleProcess env services)
        schedule)) {o : Comparison} (h : o.MadeIn entries) :
    SeenIn o ((hostedProcess fuel state requests runs clients s).trail (handleProcess env services)
      schedule) := by
  obtain ⟨i, creds, u, v, before, between, after, rfl⟩ := h
  -- the two commands stand in the trail of the requests in this order
  rw [outerLog_exec] at hlog
  simp only [List.map_append, List.map_cons] at hlog
  obtain ⟨pre, x, rest, hsplit, hx, hrest⟩ := Pool.exists_of_outer_eq hlog.symm
  obtain ⟨mid, y, post, rfl, hy, -⟩ := Pool.exists_of_outer_eq hrest
  have hsplit' : (hostedProcess fuel state requests runs clients s).trail
      (handleProcess env services) schedule = (pre ++ x :: mid) ++ y :: post := by
    rw [hsplit, List.append_assoc, List.cons_append]
  obtain ⟨s₁, e₁⟩ := x
  obtain ⟨s₂, e₂⟩ := y
  -- the clock is read at once, so there is no return from it
  obtain rfl | rfl := Pool.outerEvent_eq_some.mp hx
  swap
  · obtain ⟨p, -, -, hp, -⟩ := path_of_returned hsplit rfl
    cases hp
  -- the listing takes requests, so it is not executed at once
  obtain rfl | rfl := Pool.outerEvent_eq_some.mp hy
  · have hmem : ⟨s₂, ⟨i, .cmd (.sync (.listRecords o.binding creds)), .ok o.records⟩⟩ ∈
        (hostedProcess fuel state requests runs clients s).trail (handleProcess env services)
          schedule := by
      rw [hsplit']
      exact List.mem_append_right _ List.mem_cons_self
    cases adapterCalls_of_cmd hmem rfl
  -- the requests of the listing come after the clock was read
  obtain ⟨p, own₁, inside, hp, hown, hpath⟩ := path_of_returned hsplit' rfl
  have hafter := Pool.own_split pre mid ⟨s₁, ⟨i, .cmd (.sync .utcNow), o.instant⟩⟩
  obtain ⟨own₂, hlast⟩ := Prog.steps_after (hafter.symm.trans hown)
  have hmid : ∀ x ∈ mid, x ∈ (hostedProcess fuel state requests runs clients s).trail
      (handleProcess env services) schedule := by
    intro x hx
    rw [hsplit]
    simp [hx]
  have hinside : ∀ e ∈ inside, Prog.innerEvent e ∈ Pool.own i mid := by
    intro e he
    rw [hlast]
    exact List.mem_append_right _ (List.mem_map_of_mem he)
  have hshown := shown_of_path hp hpath
  refine ⟨i, creds, s₁, s₂, pre, mid, post, hsplit, holds_of_shown hmid hinside hshown,
    fun rrs r hhas hr => mem_of_has hmid hinside hshown hhas ?_⟩
  have hreturn : ⟨s₂, ⟨i, .returned (.sync (.listRecords o.binding creds)) (.ok o.records), ()⟩⟩ ∈
      (hostedProcess fuel state requests runs clients s).trail (handleProcess env services)
        schedule := by
    rw [hsplit']
    exact List.mem_append_right _ List.mem_cons_self
  -- the name at the return is the one the zone has always had
  rw [(guarantee_sameNames env services).start_trail hreturn] at hr
  exact hr

variable (fuel state requests runs clients env services s schedule)

/-- At every moment of every run on top of Route53 a sync state that is not `sync_failed` is one of
    the start, or what the comparison with records gave that the hosted zone of its binding has held
    since `last_observed_at`. -/
theorem hosted_rows_seen :
    ∀ st ∈ ((hostedProcess fuel state requests runs clients s).exec (handleProcess env services)
        schedule).state.system.db.syncStates, st.status ≠ .syncFailed →
      s.system.db.syncStates.find? st.key = some st ∨
        ∃ o : Comparison,
          SeenIn o ((hostedProcess fuel state requests runs clients s).trail
            (handleProcess env services) schedule) ∧
          o.Gives ((hostedProcess fuel state requests runs clients s).exec
            (handleProcess env services) schedule).state.system.db st := by
  obtain ⟨calls, listings, hatomic⟩ :=
    exists_atomic_run fuel state requests runs clients env services s schedule
  obtain ⟨σ, n, m, htrail, hstate⟩ := hatomic schedule (List.prefix_refl _)
  intro st hst hstatus
  -- the rows are those of the run in which every call is one command
  have hderived := rowsDerived_trail state requests runs (answering env calls listings) s.system
    ((outerLog ((hostedProcess fuel state requests runs clients s).exec (handleProcess env services)
      schedule)).map (·.thread))
  rw [hstate] at hderived
  rcases hderived.comparison hst hstatus with hstart | ⟨o, hmade, hgives⟩
  · exact .inl hstart
  · exact .inr ⟨o, seenIn_of_madeIn htrail hmade, hgives⟩

end Runs

/-! ## A run of the sample -/

section Sample

open Sample

/-- The zone with two bindings, whose hosted zones hold `www`. -/
private def servedWww : ProcessState where
  system := systemState
  services _ := { zone := hosted [wwwSet none "192.0.2.1"] }

private def observePass : WorkerRun := ⟨worker, 0, 1, []⟩

/-- The pass finds `www` with a TTL that is not desired. -/
private theorem status_observePass :
    (((hostedProcess 1 appState [] [observePass] [] servedWww).exec
      (handleProcess systemEnv fun _ => route53Env)
        (List.replicate 8 1)).state.system.db.syncStates.find? ("r1", "b1")).map (·.status) =
          some .drift := by
  decide +kernel

theorem hosted_rows_seen_www :
    ∃ st ∈ ((hostedProcess 1 appState [] [observePass] [] servedWww).exec
        (handleProcess systemEnv fun _ => route53Env)
        (List.replicate 8 1)).state.system.db.syncStates, st.key = ("r1", "b1") ∧
      st.status = .drift ∧ ∃ o : Comparison,
        SeenIn o ((hostedProcess 1 appState [] [observePass] [] servedWww).trail
          (handleProcess systemEnv fun _ => route53Env) (List.replicate 8 1)) ∧
        o.Gives ((hostedProcess 1 appState [] [observePass] [] servedWww).exec
          (handleProcess systemEnv fun _ => route53Env)
            (List.replicate 8 1)).state.system.db st := by
  obtain ⟨st, hst, hstatus⟩ := Option.map_eq_some_iff.mp status_observePass
  obtain ⟨hmem, hkey⟩ := Table.find?_eq_some.mp hst
  have hresolved : st.status ≠ .syncFailed := by
    rw [hstatus]
    decide
  rcases hosted_rows_seen 1 appState [] [observePass] [] systemEnv (fun _ => route53Env) servedWww
    (List.replicate 8 1) st hmem hresolved with hstart | hseen
  · -- the table was empty
    rw [hkey] at hstart
    cases hstart
  · exact ⟨st, hmem, hkey, hstatus, hseen⟩

end Sample

end DnsManager.Route53

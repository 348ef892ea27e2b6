import DnsManager.Spec.Provenance
import DnsManager.Spec.RecordIdentity

/-!
# Every call of a provider goes back to requests

A deployment that starts on an empty database: whatever clients and workers do, and in whatever
order, every write to a provider is that of an item a client has submitted, in a change set that
was validated, or of the inverse of it; the binding was submitted for the zone of the item's
record. Every call, the listings included, is made with the credentials that were submitted for its
binding.

## Key results
- `process_calls_requested`: the requests behind a write to a provider.
- `process_credentials_submitted`: the request behind the credentials of a call.
-/

namespace DnsManager

open Prog (Pool)

section Requests

variable [SerdeJson] [CryptoLib] [Sha256]

/-- Only the request for a change set inserts it. -/
theorem Request.makes_txCreateChangeset {state : AppState} {request : Request} {row : Changeset}
    {items : List CreateChangesetItemRequest}
    (h : request.Makes state (.api (.txCreateChangeset row items))) :
    ∃ draws body, request = .createChangeset draws body ∧ validateChangesetRequest body = .ok () ∧
      row = changesetRow draws body ∧ items = body.items := by
  cases request with
  | createChangeset draws body => exact ⟨draws, body, rfl, h⟩
  | _ => exact absurd h (acts_eq_false_of rfl)

/-- Only the request for a binding inserts it. -/
theorem Request.makes_insertBinding {state : AppState} {request : Request} {row : ProviderBinding}
    (h : request.Makes state (.api (.insertBinding row))) :
    ∃ draws body, request = .createProvider draws body ∧
      validateProviderRequest state.registeredProviders body = .ok () ∧
      bindingRow state.keyProvider draws body = .ok row := by
  cases request with
  | createProvider draws body => exact ⟨draws, body, rfl, h⟩
  | _ => exact absurd h (acts_eq_false_of rfl)

omit [Sha256] in
/-- The row of a binding is one of the zone that was asked for. -/
private theorem zoneId_of_bindingRow {keyProvider : KeyProvider} {draws : ProviderDraws}
    {body : CreateProviderRequest} {row : ProviderBinding}
    (h : bindingRow keyProvider draws body = .ok row) : row.zoneId = body.zoneId := by
  obtain ⟨bytes, -, h⟩ := Except.bind_eq_ok.mp h
  obtain ⟨encrypted, -, h⟩ := Except.bind_eq_ok.mp h
  cases h
  rfl

/-- The binding was submitted with a request that was accepted. -/
def BindingRequested (state : AppState) (requests : List Request) (b : ProviderBinding)
    (body : CreateProviderRequest) : Prop :=
  ∃ draws, .createProvider draws body ∈ requests ∧
    validateProviderRequest state.registeredProviders body = .ok () ∧
    bindingRow state.keyProvider draws body = .ok b

/-- The requests a call that gives a key of a binding a value was made for. -/
structure CallRequested (state : AppState) (requests : List Request) (pre : List SystemEntry)
    (db : Database) (b : ProviderBinding) (key : RecordKey) (value : Option ProviderRecord) :
    Prop where
  /-- A client has submitted an item whose write, or its inverse, this is, and its change set was
      validated before. -/
  submitted : ∃ draws body, .createChangeset draws body ∈ requests ∧
    validateChangesetRequest body = .ok () ∧ Validated requests pre draws.id ∧
    ∃ item ∈ body.items, ∃ row ctx, itemRow draws.id item = .ok row ∧
      resolve db row = some ctx ∧ (ctx.write = some (key, value) ∨ ctx.undo = some (key, value)) ∧
      ctx.zoneId = b.zoneId
  /-- A client has submitted the binding. -/
  binding : ∃ body, BindingRequested state requests b body ∧ body.zoneId = b.zoneId

/-- A binding that was not there at the start was submitted. -/
theorem Provenance.bindingRequested {state : AppState} {requests : List Request}
    {start db : Database} (h : Provenance state requests start db)
    (hempty : start.bindings.rows = []) {b : ProviderBinding} (hb : b ∈ db.bindings) :
    ∃ body, BindingRequested state requests b body := by
  rcases h.bindings b hb with hstart | ⟨request, hrequest, hmakes⟩
  · rw [Table.mem_def, hempty] at hstart
    cases hstart
  · obtain ⟨draws, body, rfl, hvalid, hrow⟩ := Request.makes_insertBinding hmakes
    exact ⟨body, draws, hrequest, hvalid, hrow⟩

/-- An item of a change set that was not there at the start was submitted. -/
theorem Provenance.itemRequested {state : AppState} {requests : List Request}
    {start db : Database} (h : Provenance state requests start db)
    (hempty : start.changesets.rows = []) {id : String} {row : ChangesetItem}
    (hrow : row ∈ db.items id) :
    ∃ draws body, .createChangeset draws body ∈ requests ∧ draws.id = id ∧
      validateChangesetRequest body = .ok () ∧ ∃ item ∈ body.items, itemRow id item = .ok row := by
  obtain ⟨hmem, hid⟩ := Table.mem_select.mp hrow
  obtain ⟨c, hc, hkey⟩ := Table.mem_keys.mp (db.itemChangeset row hmem)
  rw [of_decide_eq_true hid] at hkey
  rcases h.changesets c hc with ⟨old, hold, -⟩ |
    ⟨request, hrequest, new, items, hmakes, hevolved, hitems⟩
  · rw [Table.mem_def, hempty] at hold
    cases hold
  · obtain ⟨draws, body, rfl, hvalid, rfl, rfl⟩ := Request.makes_txCreateChangeset hmakes
    have hdraws : draws.id = id := hevolved.id_eq.symm.trans hkey
    rw [hkey] at hitems
    exact ⟨draws, body, hrequest, hdraws, hvalid, (Except.mapM_eq_ok_mem hitems).2 row hrow⟩

end Requests

section Runs

variable [SerdeJson] [CryptoLib] [Sha256] [UnicodeData] [Chrono]
variable {state : AppState} {requests : List Request} {runs : List WorkerRun} {env : SystemEnv}
  {s : SystemState} {schedule : List Nat} {pre post : List SystemEntry} {x : SystemEntry}

/-- The provenance of the rows a command meets. -/
theorem provenance_of_split
    (hsplit : (process state requests runs s).trail (handleSystem env) schedule = pre ++ x :: post) :
    Provenance state requests s.db x.state.db :=
  (Pool.trail_invariant_split (J := fun _ t => Provenance state requests s.db t.db)
    (obeys_process_sanctioned state requests runs s) (.refl s.db)
    (fun _ _ _ _ h hc => h.step hc) hsplit).1

/-! ## Credentials -/

/-- The binding a command calls the provider for, and with which credentials. -/
def SystemCmd.credentials : SystemCmd → Option (ProviderBinding × Credentials)
  | .apply (.upsertRecord b creds _) => some (b, creds)
  | .apply (.deleteRecord b creds _) => some (b, creds)
  | .sync (.listRecords b creds) => some (b, creds)
  | _ => none

omit [CryptoLib] [Sha256] [UnicodeData] [Chrono] in
private theorem callsProvider_of_credentials {c : SystemCmd} {b : ProviderBinding}
    {creds : Credentials} (h : c.credentials = some (b, creds)) : c.callsProvider = true := by
  unfold SystemCmd.credentials at h
  split at h
  · rfl
  · rfl
  · rfl
  · cases h

/-- The credentials were submitted for the binding: they are what serde reads of the JSON the
    client has sent. -/
def CredentialsSubmitted (state : AppState) (requests : List Request) (b : ProviderBinding)
    (creds : Credentials) : Prop :=
  ∃ body bytes, BindingRequested state requests b body ∧
    SerdeJson.valueToVec body.credentials = .ok bytes ∧
    SerdeJson.credentialsFromSlice bytes = .ok creds

/-- A reply of the thread was given from a database that has grown to this one. -/
private theorem replied_of_split
    (hsplit : (process state requests runs s).trail (handleSystem env) schedule = pre ++ x :: post)
    {c : SystemCmd} {reply : c.Reply} (he : ⟨c, reply⟩ ∈ Pool.own x.event.thread pre) :
    ∃ t : SystemState, reply = (handleSystem env c t).1 ∧ t.db.Grows x.state.db := by
  obtain ⟨t, hreply, hkeeps⟩ := (guarantee_keeps env).replied hsplit he
  exact ⟨t, hreply, (((guarantee_keeps env).step c t).trans hkeeps).grows⟩

/-- A call of a provider is made by a run of the worker, for a binding of the database. -/
theorem call_authorized
    (hsplit : (process state requests runs s).trail (handleSystem env) schedule = pre ++ x :: post)
    {b : ProviderBinding} {creds : Credentials}
    (hcall : x.event.cmd.credentials = some (b, creds)) :
    b ∈ x.state.db.bindings ∧ ∃ run ∈ runs, run.worker.Authorizes b creds := by
  have hsanctioned := sanctioned_of_split hsplit
  -- the bindings a thread was shown are still there
  have hactive : ∀ {zoneId bs}, ⟨.selectActiveBindings zoneId, .ok bs⟩ ∈
      applyPart (Pool.own x.event.thread pre) → b ∈ bs → b ∈ x.state.db.bindings := by
    intro zoneId bs hread hb
    obtain ⟨t, hreply, hgrows⟩ := replied_of_split hsplit (mem_applyPart.mp hread)
    replace hreply : .ok bs = (handle env.apply (.selectActiveBindings zoneId) t.world).1 := hreply
    have hrows : bs = t.db.activeBindings zoneId := World.query_eq_ok hreply.symm
    rw [hrows] at hb
    exact hgrows.bindings.mem (Database.mem_activeBindings.mp hb).1
  have hshown : BindingShown (syncPart (Pool.own x.event.thread pre)) b →
      b ∈ x.state.db.bindings := by
    rintro (⟨bs, hread, hb⟩ | ⟨id, hread⟩)
    · obtain ⟨t, hreply, hgrows⟩ := replied_of_split hsplit (mem_syncPart.mp hread)
      replace hreply : .ok bs = (handleSync env.sync .selectActive t.syncWorld).1 := hreply
      have hrows : bs = t.db.bindings.select fun b => b.status == .active :=
        SyncWorld.query_eq_ok hreply.symm
      rw [hrows] at hb
      exact hgrows.bindings.mem (Table.mem_select.mp hb).1
    · obtain ⟨t, hreply, hgrows⟩ := replied_of_split hsplit (mem_syncPart.mp hread)
      replace hreply : .ok (some b) = (handleSync env.sync (.selectBinding id) t.syncWorld).1 :=
        hreply
      have hfound : some b = t.db.bindings.find? id := SyncWorld.query_eq_ok hreply.symm
      exact hgrows.bindings.mem (Table.find?_eq_some.mp hfound.symm).1
  obtain ⟨u, i, c, r⟩ := x
  rcases hsanctioned with ⟨request, -, hmakes⟩ | ⟨run, hrun, hmakes⟩
  · exact absurd hmakes (Request.not_makes_call (callsProvider_of_credentials hcall))
  · cases c with
    | apply c =>
      cases c with
      | upsertRecord b' creds' record =>
        cases hcall
        obtain ⟨⟨id, ctx, bs, -, hread, hb, -⟩, hauthorized⟩ := hmakes
        exact ⟨hactive hread hb, run, hrun, hauthorized⟩
      | deleteRecord b' creds' key =>
        cases hcall
        obtain ⟨⟨id, ctx, bs, -, hread, hb, -⟩, hauthorized⟩ := hmakes
        exact ⟨hactive hread hb, run, hrun, hauthorized⟩
      | _ => cases hcall
    | sync c =>
      cases c with
      | listRecords b' creds' =>
        cases hcall
        exact ⟨hshown hmakes.origin.1, run, hrun, hmakes.origin.2⟩
      | _ => cases hcall
    | api c => cases hcall

variable [LawfulCryptoLib]

/-- In a run from a database without bindings, with the key the workers share with the API, every
    call of a provider is made with the credentials that were submitted for its binding. -/
theorem process_credentials_submitted
    (hsplit : (process state requests runs s).trail (handleSystem env) schedule = pre ++ x :: post)
    (hbindings : s.db.bindings.rows = [])
    (hkey : ∀ run ∈ runs, run.worker.keyProvider = state.keyProvider)
    (hnonces : ∀ draws body, .createProvider draws body ∈ requests →
      draws.blobNonce.length = nonceLen ∧ draws.dekNonce.length = nonceLen)
    {b : ProviderBinding} {creds : Credentials}
    (hcall : x.event.cmd.credentials = some (b, creds)) :
    CredentialsSubmitted state requests b creds := by
  obtain ⟨hb, run, hrun, -, hdecrypt⟩ := call_authorized hsplit hcall
  obtain ⟨body, hrequested⟩ := (provenance_of_split hsplit).bindingRequested hbindings hb
  obtain ⟨draws, hrequest, -, hrow⟩ := id hrequested
  obtain ⟨hblobNonce, hdekNonce⟩ := hnonces draws body hrequest
  obtain ⟨-, -, bytes, hbytes, hencrypt⟩ := bindingRow_ok hrow
  -- the worker undoes the encryption, so it reads the bytes that were submitted
  have hplain := decrypt_encrypt hblobNonce hdekNonce hencrypt
  refine ⟨body, bytes, hrequested, hbytes, ?_⟩
  obtain ⟨bytes', hbytes', hcreds⟩ := Except.bind_eq_ok.mp hdecrypt
  rw [hkey run hrun, hplain] at hbytes'
  cases hbytes'
  exact Except.mapError_eq_ok.mp hcreds

end Runs

/-! ## A deployment from its start -/

section Sample

open Sample (appState bytes credentialsText credentials dek item request systemEnv systemState
  workerRun www)

attribute [local instance] tableCrypto instLawfulCryptoLib Sample.serdeJson Sample.unicodeData
  Sample.sha256 Sample.chrono

/-- The database after the migration. -/
private def migrated : Database :=
  { emptyZone with
    zones := Table.empty
    zoneNameUnique := List.nodup_nil
    bindingZone := List.forall_mem_nil _
    recordZone := List.forall_mem_nil _ }

private def time : String := "2024-01-15T12:30:00+00:00"

/-- A zone, a binding and the record `www` are created, and then a change set for the record. -/
private def firstRequests : List Request :=
  [.createZone ⟨"z1", time⟩ { name := "example.com", defaultTtl := 300 },
    .createProvider ⟨"b1", time, dek, bytes 0 12, bytes 12 12⟩
      ⟨"z1", "route53", "Z1", credentialsText⟩,
    .createRecord ⟨"r1", time⟩ "z1"
      { name := "www", recordType := .a, ttl := 300, values := ["192.0.2.1"] },
    .createChangeset ⟨"c1", time⟩ (request [item "r1" "create" none (some (www "192.0.2.1"))]),
    .validateChangeset "c1"]

private def firstState : SystemState := { world := { db := migrated, contents := fun _ _ => none } }

/-- The requests are served one after the other, and then the worker applies the change set. -/
private def firstTurns : List Nat :=
  List.replicate 3 0 ++ List.replicate 4 1 ++ List.replicate 4 2 ++ List.replicate 4 3 ++
    List.replicate 5 4 ++ List.replicate 7 5

private abbrev firstTrail : List SystemEntry :=
  (process appState firstRequests [workerRun] firstState).trail (handleSystem systemEnv) firstTurns

private theorem lt_length_firstTrail : 26 < firstTrail.length := by decide +kernel

/-- The call that writes `www`. -/
private abbrev firstCall : SystemEntry := firstTrail.get ⟨26, lt_length_firstTrail⟩

private theorem firstTrail_split :
    firstTrail = firstTrail.take 26 ++ firstCall :: firstTrail.drop 27 :=
  (List.take_append_drop 26 firstTrail).symm.trans
    (congrArg _ (List.drop_eq_getElem_cons lt_length_firstTrail))

private def firstBinding : ProviderBinding :=
  { Sample.binding "b1" "Z1" with createdAt := time, updatedAt := time }

theorem process_credentials_submitted_www :
    CredentialsSubmitted appState firstRequests firstBinding credentials := by
  refine process_credentials_submitted firstTrail_split rfl ?_ ?_ (by decide +kernel)
  · intro run hrun
    obtain rfl := List.mem_singleton.mp hrun
    rfl
  · intro draws body hmem
    simp only [firstRequests, List.mem_cons, reduceCtorEq, List.not_mem_nil, or_false, false_or] at hmem
    cases hmem
    exact ⟨rfl, rfl⟩

end Sample

end DnsManager

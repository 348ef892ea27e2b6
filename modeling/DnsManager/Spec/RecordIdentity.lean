import DnsManager.Adapters.Route53.Convert
import DnsManager.Spec.RecordCreation

/-!
# Which desired records name the same record set

The unique index on the active records compares names byte by byte, Route53 without regard to
ASCII case. Between two records of one zone and type there is no other difference: `to_fqdn`
keeps them apart, the apex included.

## Key results
- `insertDesiredRecord_ok_iff`: which requests leave a row.
- `distinct_step_iff`: one creation keeps the record sets apart exactly when the request is
  refused or its name is not that of an active record up to case.
- `recordCalls_distinct_iff`: the same along every run of creations.
-/

namespace DnsManager

section Creation

variable [SerdeJson] [Sha256]

/-- A call of `create_record`, with the id and the time it draws. -/
structure RecordCall where
  zoneId : String
  id : String
  now : String
  body : CreateRecordRequest
deriving DecidableEq

/-- The database after the call. -/
def RecordCall.step (db : Database) (call : RecordCall) : Database :=
  (createRecord db call.zoneId call.id call.now call.body).2

/-- The database after the calls, one after another. -/
def afterCalls (db : Database) (calls : List RecordCall) : Database :=
  calls.foldl RecordCall.step db

/-- Two active records of the same zone and type have names Route53 keeps apart, in every hosted
    zone. -/
def Database.DistinctRecordSets (db : Database) : Prop :=
  ∀ r₁ ∈ db.desiredRecords, ∀ r₂ ∈ db.desiredRecords, r₁.deletedAt = none →
    r₂.deletedAt = none → r₁.zoneId = r₂.zoneId → r₁.recordType = r₂.recordType → r₁ ≠ r₂ →
    ∀ zoneFqdn, Route53.fqdnsEqual (Route53.toFqdn r₁.name zoneFqdn)
      (Route53.toFqdn r₂.name zoneFqdn) = false

/-- The request passes the checks of `create_record` and of the schema. -/
structure RecordCall.Admissible (db : Database) (call : RecordCall) : Prop where
  valid : validateRecordRequest call.body = .ok ()
  zone : call.zoneId ∈ db.zones.keys
  values : ∃ text, SerdeJson.stringsToString call.body.values = .ok text
  id : call.id ∉ db.desiredRecords.keys
  key : (call.zoneId, call.body.name, recordTypeStr call.body.recordType) ∉
    activeKeys db.desiredRecords.rows

/-- No active record of the zone and type has the requested name up to ASCII case. -/
def RecordCall.NameFree (db : Database) (call : RecordCall) : Prop :=
  ∀ r ∈ db.desiredRecords, r.deletedAt = none → r.zoneId = call.zoneId →
    r.recordType = recordTypeStr call.body.recordType →
    RustStr.eqIgnoreAsciiCase r.name call.body.name = false

omit [SerdeJson] [Sha256] in
/-- The names of two records of one zone and type are kept apart in all hosted zones when they
    are not equal up to case. -/
theorem distinctRecordSets_iff {db : Database} :
    db.DistinctRecordSets ↔ ∀ r₁ ∈ db.desiredRecords, ∀ r₂ ∈ db.desiredRecords,
      r₁.deletedAt = none → r₂.deletedAt = none → r₁.zoneId = r₂.zoneId →
      r₁.recordType = r₂.recordType → r₁ ≠ r₂ →
      RustStr.eqIgnoreAsciiCase r₁.name r₂.name = false := by
  unfold Database.DistinctRecordSets
  simp only [Route53.fqdnsEqual_toFqdn, forall_const]

/-- The row of a request is active and has its zone, type and name. -/
theorem activeKey_recordRow {call : RecordCall} {row : DesiredRecord}
    (h : recordRow call.zoneId call.id call.now call.body = .ok row) :
    row.activeKey = (call.zoneId, call.body.name, recordTypeStr call.body.recordType) := by
  obtain ⟨-, hzone, hname, htype, -⟩ := recordRow_ok h
  rw [DesiredRecord.activeKey, hzone, hname, htype, recordTypeStr_eq_serdeName]

omit [SerdeJson] [Sha256] in
/-- An active row is kept apart from the others by the unique index. -/
theorem nodup_activeKeys_append {db : Database} {row : DesiredRecord}
    (hactive : row.deletedAt = none) :
    (activeKeys (db.desiredRecords.rows ++ [row])).Nodup ↔
      row.activeKey ∉ activeKeys db.desiredRecords.rows := by
  have happend : activeKeys (db.desiredRecords.rows ++ [row]) =
      activeKeys db.desiredRecords.rows ++ [row.activeKey] := by
    simp [activeKeys, List.filter_append, hactive]
  rw [happend, ← List.concat_eq_append, List.nodup_concat]
  exact and_iff_left db.recordUnique

/-- The admissible requests are the ones that leave a row. -/
theorem insertDesiredRecord_ok_iff {db : Database} {call : RecordCall} :
    (∃ out, insertDesiredRecord db call.zoneId call.id call.now call.body = .ok out) ↔
      call.Admissible db := by
  constructor
  · rintro ⟨⟨row, db'⟩, h⟩
    obtain ⟨hvalid, hrow, hinsert⟩ := insertDesiredRecord_ok h
    obtain ⟨hid, hzoneId, -, -, -, hactive, hvalues⟩ := recordRow_ok hrow
    obtain ⟨hkey, -, hunique, hzone⟩ := Database.exists_insertRecord_ok_iff.mp ⟨db', hinsert⟩
    rw [nodup_activeKeys_append hactive, activeKey_recordRow hrow] at hunique
    exact ⟨hvalid, hzoneId ▸ hzone, ⟨_, hvalues⟩, hid ▸ hkey, hunique⟩
  · rintro ⟨hvalid, hzone, ⟨text, htext⟩, hid, hkey⟩
    -- the zone is found, so only the row and the constraints remain
    have hfound : (db.zones.find? call.zoneId).isNone = false := by
      obtain ⟨z, hz, hid⟩ := Table.mem_keys.mp hzone
      rw [Table.find?_eq_some.mpr ⟨hz, hid⟩]
      rfl
    obtain ⟨row, hrow⟩ : ∃ row, recordRow call.zoneId call.id call.now call.body = .ok row := by
      unfold recordRow
      rw [htext]
      exact ⟨_, rfl⟩
    have hrowFields := recordRow_ok hrow
    obtain ⟨db', hinsert⟩ : ∃ db', db.insertRecord row = .ok db' := by
      refine Database.exists_insertRecord_ok_iff.mpr ⟨hrowFields.1 ▸ hid, ?_, ?_, hrowFields.2.1 ▸ hzone⟩
      · rw [hrowFields.2.2.2.1, ← recordTypeStr_eq_serdeName]
        exact recordTypeStr_mem _
      · rw [nodup_activeKeys_append hrowFields.2.2.2.2.2.1, activeKey_recordRow hrow]
        exact hkey
    refine ⟨(row, db'), Except.bind_eq_ok.mpr ⟨(), hvalid, ?_⟩⟩
    rw [hfound, if_neg (by decide)]
    refine Except.bind_eq_ok.mpr ⟨row, hrow, ?_⟩
    exact Except.bind_eq_ok.mpr ⟨db', Except.mapError_eq_ok.mpr hinsert, rfl⟩

/-- An admissible request adds its row, and the others change nothing. -/
theorem step_cases (db : Database) (call : RecordCall) :
    (call.Admissible db ∧ ∃ row, recordRow call.zoneId call.id call.now call.body = .ok row ∧
      ∀ r, r ∈ (call.step db).desiredRecords ↔ r ∈ db.desiredRecords ∨ r = row) ∨
    (¬ call.Admissible db ∧ call.step db = db) := by
  cases h : insertDesiredRecord db call.zoneId call.id call.now call.body with
  | error e =>
    refine .inr ⟨fun hadm => ?_, ?_⟩
    · obtain ⟨out, hout⟩ := insertDesiredRecord_ok_iff.mpr hadm
      cases h.symm.trans hout
    · simp only [RecordCall.step, createRecord, h]
  | ok out =>
    obtain ⟨row, db'⟩ := out
    obtain ⟨-, hrow, hinsert⟩ := insertDesiredRecord_ok h
    refine .inl ⟨insertDesiredRecord_ok_iff.mp ⟨_, h⟩, row, hrow, fun r => ?_⟩
    have hstep : call.step db = db' := by simp only [RecordCall.step, createRecord, h]
    rw [hstep]
    exact Table.mem_insert (Database.insertRecord_ok hinsert).1

/-- One creation keeps the record sets apart exactly when the request is refused or no active
    record has its name up to case. -/
theorem distinct_step_iff {db : Database} {call : RecordCall} (hdb : db.DistinctRecordSets) :
    (call.step db).DistinctRecordSets ↔ (call.Admissible db → call.NameFree db) := by
  rcases step_cases db call with ⟨hadm, row, hrow, hmem⟩ | ⟨hnot, hstep⟩
  · obtain ⟨hid, hzone, hname, htype, -, hactive, -⟩ := recordRow_ok hrow
    rw [← recordTypeStr_eq_serdeName] at htype
    -- an admitted id is not taken, so the new row is none of the old ones
    have hnew : row ∉ db.desiredRecords := fun hin =>
      hadm.id (hid ▸ Table.mem_keys.mpr ⟨row, hin, rfl⟩)
    rw [distinctRecordSets_iff] at hdb ⊢
    constructor
    · intro hafter _ r hr hractive hrzone hrtype
      rw [← hname]
      exact hafter r ((hmem r).mpr (.inl hr)) row ((hmem row).mpr (.inr rfl)) hractive hactive
        (hrzone.trans hzone.symm) (hrtype.trans htype.symm) fun heq => hnew (heq ▸ hr)
    · intro hfree r₁ h₁ r₂ h₂ hactive₁ hactive₂ hzones htypes hne
      replace hfree := hfree hadm
      rcases (hmem r₁).mp h₁ with h₁ | rfl <;> rcases (hmem r₂).mp h₂ with h₂ | rfl
      · -- two old rows
        exact hdb r₁ h₁ r₂ h₂ hactive₁ hactive₂ hzones htypes hne
      · -- an old row and the new one; the other order is alike
        rw [hname]
        exact hfree r₁ h₁ hactive₁ (hzones.trans hzone) (htypes.trans htype)
      · rw [RustStr.eqIgnoreAsciiCase_comm, hname]
        exact hfree r₂ h₂ hactive₂ (hzones.symm.trans hzone) (htypes.symm.trans htype)
      · exact absurd rfl hne
  · rw [hstep]
    exact ⟨fun _ hadm => absurd hadm hnot, fun _ => hdb⟩

/-- Along every run of creations on an empty table the record sets stay apart exactly when every
    request, when it arrives, is refused or has a name no active record has up to case. -/
theorem recordCalls_distinct_iff {db : Database} (hempty : db.desiredRecords.rows = [])
    (calls : List RecordCall) :
    (∀ done, done <+: calls → (afterCalls db done).DistinctRecordSets) ↔
      ∀ done call, done ++ [call] <+: calls →
        call.Admissible (afterCalls db done) → call.NameFree (afterCalls db done) := by
  have hsnoc : ∀ done call, afterCalls db (done ++ [call]) = call.step (afterCalls db done) :=
    fun done call => by rw [afterCalls, List.foldl_append]; rfl
  constructor
  · intro hall done call hpre
    rw [← distinct_step_iff (hall done ((List.prefix_append done [call]).trans hpre)), ← hsnoc]
    exact hall _ hpre
  · intro hfree done
    -- induction on the calls that are done, the last one first
    induction done using List.reverseRecOn with
    | nil =>
      intro _ r₁ h₁
      rw [Table.mem_def, show (afterCalls db []).desiredRecords = db.desiredRecords from rfl,
        hempty] at h₁
      cases h₁
    | append_singleton done call ih =>
      intro hpre
      rw [hsnoc, distinct_step_iff (ih ((List.prefix_append done [call]).trans hpre))]
      exact hfree done call hpre

end Creation

section Sample

attribute [local instance] Sample.serdeJson

/-- The digests of three `A` records with the address `192.0.2.1`. -/
local instance nameDigests : Sha256 where
  digest data :=
    if data = asBytes "www|A|300|9:192.0.2.1|" then
      [164, 96, 199, 203, 91, 212, 178, 42, 76, 22, 101, 201, 208, 192, 128, 189, 125, 94, 12, 78,
       126, 46, 74, 243, 190, 123, 197, 164, 236, 117, 235, 94]
    else ((Sample.digests.find? fun d => asBytes d.1 = data).map (·.2)).getD []

/-- Zone `z1` without records. -/
def emptyZone : Database where
  zones := ⟨[Sample.zone], List.nodup_singleton _⟩
  bindings := Table.empty
  desiredRecords := Table.empty
  changesets := Table.empty
  changesetItems := Table.empty
  syncStates := Table.empty
  zoneNameUnique := List.nodup_singleton _
  bindingZone _ h := (List.not_mem_nil h).elim
  recordZone _ h := (List.not_mem_nil h).elim
  recordTypeCheck _ h := (List.not_mem_nil h).elim
  recordUnique := List.nodup_nil
  policyCheck _ h := (List.not_mem_nil h).elim
  itemChangeset _ h := (List.not_mem_nil h).elim
  itemRecord _ h := (List.not_mem_nil h).elim
  operationCheck _ h := (List.not_mem_nil h).elim
  syncRecord _ h := (List.not_mem_nil h).elim
  syncBinding _ h := (List.not_mem_nil h).elim

/-- The creation of an `A` record in zone `z1`. -/
def nameCall (id name : String) : RecordCall :=
  ⟨"z1", id, "2024-01-15T12:30:00+00:00",
    { name, recordType := .a, ttl := 300, values := ["192.0.2.1"] }⟩

/-- The records `www` and `blog` stay apart. -/
theorem recordCalls_distinct_blog :
    (afterCalls emptyZone [nameCall "r1" "www", nameCall "r2" "blog"]).DistinctRecordSets := by
  refine (recordCalls_distinct_iff rfl [nameCall "r1" "www", nameCall "r2" "blog"]).mpr
    (fun done call hpre _ => ?_) _ List.prefix_rfl
  have hfirst : ∀ r ∈ (afterCalls emptyZone []).desiredRecords.rows,
      RustStr.eqIgnoreAsciiCase r.name "www" = false := by decide +kernel
  have hsecond : ∀ r ∈ (afterCalls emptyZone [nameCall "r1" "www"]).desiredRecords.rows,
      RustStr.eqIgnoreAsciiCase r.name "blog" = false := by decide +kernel
  rcases List.eq_nil_or_concat' done with rfl | ⟨done, last, rfl⟩
  · obtain ⟨rfl, -⟩ := List.cons_prefix_cons.mp hpre
    exact fun r hr _ _ _ => hfirst r hr
  · cases done with
    | nil =>
      obtain ⟨rfl, hrest⟩ := List.cons_prefix_cons.mp hpre
      obtain ⟨rfl, -⟩ := List.cons_prefix_cons.mp hrest
      exact fun r hr _ _ _ => hsecond r hr
    | cons first done => exact absurd hpre.length_le (by simp)

/-- The records `www` and `WWW` are both accepted, and name one record set of `example.com`. -/
theorem recordCalls_collide :
    ¬ (afterCalls emptyZone [nameCall "r1" "www", nameCall "r2" "WWW"]).DistinctRecordSets := by
  have hrows : ∃ r₁ ∈ (afterCalls emptyZone
      [nameCall "r1" "www", nameCall "r2" "WWW"]).desiredRecords.rows,
      ∃ r₂ ∈ (afterCalls emptyZone
        [nameCall "r1" "www", nameCall "r2" "WWW"]).desiredRecords.rows,
      r₁.deletedAt = none ∧ r₂.deletedAt = none ∧ r₁.zoneId = r₂.zoneId ∧
        r₁.recordType = r₂.recordType ∧ r₁ ≠ r₂ ∧
        Route53.fqdnsEqual (Route53.toFqdn r₁.name "example.com.")
          (Route53.toFqdn r₂.name "example.com.") = true := by
    decide +kernel
  obtain ⟨r₁, h₁, r₂, h₂, hactive₁, hactive₂, hzone, htype, hne, hequal⟩ := hrows
  intro h
  rw [h r₁ h₁ r₂ h₂ hactive₁ hactive₂ hzone htype hne] at hequal
  cases hequal

end Sample

end DnsManager

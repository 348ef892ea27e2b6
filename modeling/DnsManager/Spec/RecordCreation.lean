import DnsManager.ForStd.Except
import DnsManager.Spec.Sample

/-!
# What an accepted record is stored as

`create_record` takes a time to live of 64 bits and the worker one of 32, so a row that
the API has accepted may be one the worker cannot read.

## Key results
- `insertDesiredRecord_ok`: the row of an accepted record.
- `createRecord_readable_iff`: the worker reads back what was submitted, and an observe pass
  writes a sync state for it, exactly when the time to live fits 32 bits.
-/

namespace DnsManager

/-- The conversion to 32 bits succeeds on the numbers that fit, and keeps them. -/
theorem u32TryFrom_eq_ok {n : Int64} {t : UInt32} :
    u32TryFrom n = .ok t ↔ (t.toNat : Int) = n.toInt := by
  unfold u32TryFrom
  constructor
  · intro h
    split at h
    · next hr =>
      cases h
      rw [UInt32.toNat_ofNat_of_lt' (by simp only [UInt32.size]; omega)]
      omega
    · cases h
  · intro h
    have ht := t.toNat_lt
    rw [if_pos (by omega), ← h, Int.toNat_natCast, UInt32.ofNat_toNat]

section Worker

variable [SerdeJson] [Sha256]

/-- The row of an accepted record carries the request, and the checks have passed. -/
theorem insertDesiredRecord_ok {db db' : Database} {zoneId id now : String}
    {body : CreateRecordRequest} {row : DesiredRecord}
    (h : insertDesiredRecord db zoneId id now body = .ok (row, db')) :
    validateRecordRequest body = .ok () ∧ recordRow zoneId id now body = .ok row ∧
      db.insertRecord row = .ok db' := by
  unfold insertDesiredRecord at h
  obtain ⟨_, hvalid, h⟩ := Except.bind_eq_ok.mp h
  split at h
  · cases h
  obtain ⟨row', hrow, h⟩ := Except.bind_eq_ok.mp h
  obtain ⟨db₁, hinsert, h⟩ := Except.bind_eq_ok.mp h
  cases h
  exact ⟨hvalid, hrow, Except.mapError_eq_ok.mp hinsert⟩

/-- What `create_record` writes into the columns the worker reads. -/
theorem recordRow_ok {zoneId id now : String} {body : CreateRecordRequest}
    {row : DesiredRecord} (h : recordRow zoneId id now body = .ok row) :
    row.id = id ∧ row.zoneId = zoneId ∧ row.name = body.name ∧
      row.recordType = body.recordType.serdeName ∧ row.ttl = body.ttl ∧ row.deletedAt = none ∧
      SerdeJson.stringsToString body.values = .ok row.recordValues := by
  unfold recordRow at h
  obtain ⟨text, htext, h⟩ := Except.bind_eq_ok.mp h
  cases h
  exact ⟨rfl, rfl, rfl, recordTypeStr_eq_serdeName _, rfl, rfl, Except.mapError_eq_ok.mp htext⟩

/-- An accepted request has left its row in the database. -/
theorem createRecord_ok {db db' : Database} {zoneId id now : String} {body : CreateRecordRequest}
    {view : RecordView} (h : createRecord db zoneId id now body = (.ok view, db')) :
    ∃ row, insertDesiredRecord db zoneId id now body = .ok (row, db') ∧
      db'.desiredRecords.find? id = some row := by
  unfold createRecord at h
  split at h
  · cases congrArg Prod.fst h
  · next row db'' hins =>
    obtain rfl : db'' = db' := congrArg Prod.snd h
    obtain ⟨-, hrow, hdb⟩ := insertDesiredRecord_ok hins
    have hmem : row ∈ db''.desiredRecords :=
      (Table.mem_insert (Database.insertRecord_ok hdb).1).mpr (.inr rfl)
    exact ⟨row, hins, Table.find?_eq_some.mpr ⟨hmem, (recordRow_ok hrow).1⟩⟩

/-- The row of an accepted record parses to the submitted values exactly when the time to
    live is the one of the result. -/
theorem parseDesiredRecord_recordRow {zoneId id now : String} {body : CreateRecordRequest}
    {row : DesiredRecord} (hrow : recordRow zoneId id now body = .ok row)
    (hstrings : ∀ text, SerdeJson.stringsToString body.values = .ok text →
      SerdeJson.stringsFromStr text = .ok body.values)
    (htype : SerdeJson.recordTypeFromStr s!"\"{body.recordType.serdeName}\"" =
      .ok body.recordType) (ttl : UInt32) :
    parseDesiredRecord row = .ok ⟨body.name, body.recordType, ttl, body.values⟩ ↔
      (ttl.toNat : Int) = body.ttl.toInt := by
  obtain ⟨-, -, hname, hrt, httl, -, hvalues⟩ := recordRow_ok hrow
  unfold parseDesiredRecord
  -- the values and the type come back, so the conversion of the time to live decides
  rw [hstrings _ hvalues, hrt, htype, httl, hname, ← u32TryFrom_eq_ok]
  cases u32TryFrom body.ttl with
  | error e => exact ⟨fun h => (nomatch h), fun h => (nomatch h)⟩
  | ok t =>
    constructor
    · intro h
      exact congrArg Except.ok (ProviderRecord.mk.inj (Except.ok.inj h)).2.2.1
    · intro h
      rw [Except.ok.inj h]
      rfl

variable [CryptoLib] [UnicodeData] [Chrono] (worker : ReconcileWorker)

/-- The worker reads back exactly what was submitted for an accepted record, and every observe
    pass over a binding of its zone writes a sync state for it, exactly when the time to live
    fits 32 bits. -/
theorem createRecord_readable_iff {db db' : Database} {zoneId id now : String}
    {body : CreateRecordRequest} {view : RecordView}
    (hcreate : createRecord db zoneId id now body = (.ok view, db'))
    (hstrings : ∀ text, SerdeJson.stringsToString body.values = .ok text →
      SerdeJson.stringsFromStr text = .ok body.values)
    (htype : SerdeJson.recordTypeFromStr s!"\"{body.recordType.serdeName}\"" =
      .ok body.recordType)
    (hjson : ∀ r, ∃ text, SerdeJson.recordToString r = .ok text) :
    (∃ row, db'.desiredRecords.find? id = some row ∧
      (∃ ttl : UInt32, (ttl.toNat : Int) = body.ttl.toInt ∧
        parseDesiredRecord row = .ok ⟨body.name, body.recordType, ttl, body.values⟩) ∧
      ∀ (env : SyncEnv) (w : SyncWorld), env.Reliable → ∀ binding ∈ w.db.bindings,
        row ∈ w.db.desiredOf binding.id →
        ∃ w' s, (worker.observeOneBinding binding).run (handleSync env) w = (.ok (), w') ∧
          w'.db.syncStates.find? (id, binding.id) = some s ∧
          s.lastObservedAt = some (Chrono.toRfc3339 (env.now w.readings))) ↔
      body.ttl.toInt ≤ 4294967295 := by
  obtain ⟨row, hins, hfind⟩ := createRecord_ok hcreate
  obtain ⟨hvalid, hrow, -⟩ := insertDesiredRecord_ok hins
  have hparse := parseDesiredRecord_recordRow hrow hstrings htype
  constructor
  · rintro ⟨row', hfind', ⟨ttl, httl, -⟩, -⟩
    have := ttl.toNat_lt
    omega
  · intro hle
    have hpos : 0 < body.ttl.toInt := by
      unfold validateRecordRequest at hvalid
      split at hvalid
      · cases hvalid
      · next hnot =>
        rw [Int64.le_iff_toInt_le] at hnot
        exact not_le.mp hnot
    have httl : ((UInt32.ofNat body.ttl.toInt.toNat).toNat : Int) = body.ttl.toInt := by
      rw [UInt32.toNat_ofNat_of_lt' (by simp only [UInt32.size]; omega)]
      omega
    refine ⟨row, hfind, ⟨_, httl, (hparse _).mpr httl⟩, fun env w hrel binding hb hmem => ?_⟩
    obtain ⟨w', hrun, hobs⟩ := run_observeOneBinding worker hjson hrel hb
    have hwritten := hobs.written row hmem
    rw [(recordRow_ok hrow).1] at hwritten
    -- whatever the listing shows, there is an observation of a row that parses
    have hsome : ∃ o, observation (worker.fetched env w.listings binding) row = some o := by
      unfold observation
      cases worker.fetched env w.listings binding with
      | error e => exact ⟨_, rfl⟩
      | ok actual =>
        simp only [(hparse _).mpr httl]
        split <;> exact ⟨_, rfl⟩
    obtain ⟨o, ho⟩ := hsome
    rw [ho] at hwritten
    exact ⟨w', _, hrun, hwritten, by simp [Observation.row]⟩

end Worker

section Sample

open Sample

/-- An `A` record `blog` with the given time to live. -/
private def blog (ttl : Int64) : CreateRecordRequest :=
  { name := "blog", recordType := .a, ttl, values := ["192.0.2.1"] }

/-- The creation of the record in zone `z1`. -/
private def blogCreated (ttl : Int64) : Except ApiError RecordView × Database :=
  createRecord twoBindings "z1" "r3" "2024-01-15T12:30:00+00:00" (blog ttl)

/-- A time to live of `2 ^ 32` seconds is accepted, but the worker cannot read the row, and an
    observe pass that lists the zone writes nothing for it. -/
theorem createRecord_unreadable :
    (blogCreated 4294967296).1.isOk = true ∧
      ((blogCreated 4294967296).2.desiredRecords.find? "r3").map parseDesiredRecord =
        some (.error
          "ttl conversion error for r3: out of range integral type conversion attempted") ∧
      ((worker.observeOneBinding (binding "b1" "Z1")).run (handleSync (syncEnv []))
        { db := (blogCreated 4294967296).2 }).1 = .ok () ∧
      ((worker.observeOneBinding (binding "b1" "Z1")).run (handleSync (syncEnv []))
        { db := (blogCreated 4294967296).2 }).2.db.syncStates.find? ("r3", "b1") = none := by
  decide +kernel

/-- A record with an ordinary time to live is readable. -/
theorem createRecord_readable_iff_blog :
    ∃ row, (blogCreated 300).2.desiredRecords.find? "r3" = some row ∧
      ∃ ttl : UInt32, (ttl.toNat : Int) = 300 ∧
        parseDesiredRecord row = .ok ⟨"blog", .a, ttl, ["192.0.2.1"]⟩ := by
  have hcreate : blogCreated 300 = (.ok (get (blogCreated 300).1 (by decide +kernel)),
      (blogCreated 300).2) := Prod.ext (eq_ok_get _ _) rfl
  have hstrings : ∀ text, SerdeJson.stringsToString (blog 300).values = .ok text →
      SerdeJson.stringsFromStr text = .ok (blog 300).values := by
    intro text htext
    cases htext
    decide +kernel
  obtain ⟨row, hfind, hparse, -⟩ := (createRecord_readable_iff worker hcreate hstrings
    (by decide +kernel) (fun _ => ⟨_, rfl⟩)).mpr (by decide +kernel)
  exact ⟨row, hfind, hparse⟩

end Sample

end DnsManager

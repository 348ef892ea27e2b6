import Mathlib.Data.List.Nodup

/-!
# Tables with a primary key

A `Table α key` is the list of rows of a relational table, in the order of their
insertion, together with the proof that no two rows have the same `key`. The operations
are those SQL has on such a table: `insert` (which refuses a key that is taken),
`find?` and `select`, `modify` for an `UPDATE` that leaves the key alone, and `upsert`
for `INSERT … ON CONFLICT (key) DO UPDATE`.

What a statement does to a row is read off with the lemmas about `find?`.
-/

/-- The rows of a table whose primary key is `key`, oldest first. -/
structure Table (α : Type) {κ : Type} (key : α → κ) where
  rows : List α
  /-- The key is unique. -/
  nodup : (rows.map key).Nodup

namespace Table

variable {α κ : Type} {key : α → κ}

/-- The table without rows. -/
def empty : Table α key := ⟨[], List.nodup_nil⟩

instance : Membership α (Table α key) := ⟨fun t a => a ∈ t.rows⟩

theorem mem_def {t : Table α key} {a : α} : a ∈ t ↔ a ∈ t.rows := Iff.rfl

/-- The keys of the rows. -/
def keys (t : Table α key) : List κ := t.rows.map key

theorem mem_keys {t : Table α key} {k : κ} : k ∈ t.keys ↔ ∃ a ∈ t, key a = k := List.mem_map

/-- The rows of a `SELECT … WHERE p`. -/
def select (t : Table α key) (p : α → Bool) : List α := t.rows.filter p

@[simp] theorem mem_select {t : Table α key} {p : α → Bool} {a : α} :
    a ∈ t.select p ↔ a ∈ t ∧ p a = true := List.mem_filter

/-- A selection has no two rows with the same key either. -/
theorem nodup_select (t : Table α key) (p : α → Bool) : ((t.select p).map key).Nodup :=
  (List.filter_sublist.map key).nodup t.nodup

/-- Rows with equal keys are equal. -/
theorem eq_of_key_eq {t : Table α key} {a b : α} (ha : a ∈ t) (hb : b ∈ t)
    (h : key a = key b) : a = b :=
  List.inj_on_of_nodup_map t.nodup ha hb h

/-- An update of some rows that leaves the key alone. -/
private theorem key_comp_update {f : α → α} (hf : ∀ a, key (f a) = key a) (p : α → Bool) :
    (key ∘ fun a => if p a then f a else a) = key := by
  funext a
  simp only [Function.comp]
  split
  · exact hf a
  · rfl

/-- `UPDATE … SET f WHERE p`, where `f` does not assign the key. -/
def modify (t : Table α key) (p : α → Bool) (f : α → α) (hf : ∀ a, key (f a) = key a) :
    Table α key where
  rows := t.rows.map fun a => if p a then f a else a
  nodup := by
    rw [List.map_map, key_comp_update hf]
    exact t.nodup

@[simp] theorem keys_modify (t : Table α key) (p : α → Bool) (f : α → α)
    (hf : ∀ a, key (f a) = key a) : (t.modify p f hf).keys = t.keys := by
  simp only [keys, modify, List.map_map, key_comp_update hf]

/-- A row after an `UPDATE` is a row before it, updated or not. -/
theorem mem_modify {t : Table α key} {p : α → Bool} {f : α → α}
    {hf : ∀ a, key (f a) = key a} {b : α} (h : b ∈ t.modify p f hf) :
    ∃ a ∈ t, b = if p a then f a else a := by
  obtain ⟨a, ha, rfl⟩ := List.mem_map.mp h
  exact ⟨a, ha, rfl⟩

variable [DecidableEq κ]

/-- The row with the given key. -/
def find? (t : Table α key) (k : κ) : Option α := t.rows.find? fun a => key a = k

theorem find?_eq_some {t : Table α key} {k : κ} {a : α} :
    t.find? k = some a ↔ a ∈ t ∧ key a = k := by
  constructor
  · intro h
    exact ⟨List.mem_of_find?_eq_some h, by simpa using List.find?_some h⟩
  · rintro ⟨ha, rfl⟩
    cases hf : t.find? (key a) with
    | none =>
      have hne := List.find?_eq_none.mp hf a ha
      exact absurd (decide_eq_true rfl) hne
    | some b =>
      have hb : key b = key a := by simpa using List.find?_some hf
      rw [eq_of_key_eq (List.mem_of_find?_eq_some hf) ha hb]

theorem find?_eq_none {t : Table α key} {k : κ} : t.find? k = none ↔ ∀ a ∈ t, key a ≠ k := by
  simp [find?, mem_def]

/-- The rows that are looked up stand in the order of their keys. -/
theorem map_key_filterMap_find? {t : Table α key} {ks : List κ} (h : ∀ k ∈ ks, k ∈ t.keys) :
    (ks.filterMap t.find?).map key = ks := by
  induction ks with
  | nil => rfl
  | cons k ks ih =>
    obtain ⟨hk, hks⟩ := List.forall_mem_cons.mp h
    obtain ⟨a, ha, hkey⟩ := mem_keys.mp hk
    rw [List.filterMap_cons_some (find?_eq_some.mpr ⟨ha, hkey⟩), List.map_cons, ih hks, hkey]

/-- `INSERT`: `none` is the violation of the primary key. -/
def insert (t : Table α key) (a : α) : Option (Table α key) :=
  if h : key a ∈ t.rows.map key then none
  else some ⟨t.rows ++ [a], by
    rw [List.map_append, List.map_singleton, List.nodup_append_comm]
    exact List.nodup_cons.mpr ⟨h, t.nodup⟩⟩

/-- An insertion adds its row at the end of a table that had no row with its key. -/
theorem insert_eq_some {t t' : Table α key} {a : α} (h : t.insert a = some t') :
    t'.rows = t.rows ++ [a] ∧ t.find? (key a) = none := by
  unfold insert at h
  split at h
  · cases h
  · next hn =>
    cases h
    refine ⟨rfl, find?_eq_none.mpr fun b hb hk => hn ?_⟩
    rw [← hk]
    exact List.mem_map_of_mem hb

/-- Only a key that is taken is refused. -/
theorem insert_eq_none {t : Table α key} {a : α} : t.insert a = none ↔ key a ∈ t.keys := by
  unfold insert
  split
  · next h => exact ⟨fun _ => h, fun _ => rfl⟩
  · next h => exact ⟨fun hn => (nomatch hn), fun hk => absurd hk h⟩

theorem mem_insert {t t' : Table α key} {a b : α} (h : t.insert a = some t') :
    b ∈ t' ↔ b ∈ t ∨ b = a := by
  rw [mem_def, (insert_eq_some h).1, List.mem_append, List.mem_singleton]
  rfl

theorem keys_insert {t t' : Table α key} {a : α} (h : t.insert a = some t') :
    t'.keys = t.keys ++ [key a] := by
  rw [keys, (insert_eq_some h).1, List.map_append]
  rfl

/-- `INSERT … ON CONFLICT (key) DO UPDATE`: the conflicting row becomes `onConflict old`,
    otherwise `a` is inserted. -/
def upsert (t : Table α key) (a : α) (onConflict : α → α) (hc : ∀ b, key (onConflict b) = key b) :
    Table α key :=
  match t.insert a with
  | some t' => t'
  | none => t.modify (fun b => key b = key a) onConflict hc

/-- A row after an upsert has the key of the upserted row or of a row before it. -/
theorem key_of_mem_upsert {t : Table α key} {a b : α} {onConflict : α → α}
    {hc : ∀ b, key (onConflict b) = key b} (h : b ∈ t.upsert a onConflict hc) :
    key b = key a ∨ key b ∈ t.keys := by
  unfold upsert at h
  split at h
  · next hi =>
    rcases (mem_insert hi).mp h with hb | rfl
    · exact .inr (mem_keys.mpr ⟨b, hb, rfl⟩)
    · exact .inl rfl
  · obtain ⟨c, hct, rfl⟩ := mem_modify h
    refine .inr (mem_keys.mpr ⟨c, hct, ?_⟩)
    split
    · exact (hc c).symm
    · rfl

/-- What an `UPDATE` leaves under a key. -/
theorem find?_modify (t : Table α key) (p : α → Bool) (f : α → α)
    (hf : ∀ a, key (f a) = key a) (k : κ) :
    (t.modify p f hf).find? k = (t.find? k).map fun a => if p a then f a else a := by
  have hk : ((fun a => decide (key a = k)) ∘ fun a => if p a then f a else a) =
      fun a => decide (key a = k) := by
    funext a
    simp only [Function.comp]
    split <;> simp [hf]
  simp only [find?, modify, List.find?_map, hk]

/-- What an upsert leaves under a key: its own key is replaced or added, every other key
    keeps its row. -/
theorem find?_upsert (t : Table α key) (a : α) (onConflict : α → α)
    (hc : ∀ b, key (onConflict b) = key b) (k : κ) :
    (t.upsert a onConflict hc).find? k =
      if key a = k then some ((t.find? k).elim a onConflict) else t.find? k := by
  unfold upsert
  split
  · next t' hi =>
    -- the key was free: the row stands behind all others
    obtain ⟨hr, hnone⟩ := insert_eq_some hi
    simp only [find?, hr, List.find?_append]
    split
    · next hk =>
      subst hk
      have : t.rows.find? (fun b => decide (key b = key a)) = none := hnone
      simp [this]
    · next hk =>
      cases t.rows.find? fun b => decide (key b = k) <;> simp [hk]
  · next hi =>
    -- the key is taken: the row that has it is updated in place
    rw [find?_modify]
    by_cases hk : key a = k
    · subst hk
      have hmem : key a ∈ t.rows.map key := by
        unfold insert at hi
        split at hi
        · assumption
        · cases hi
      obtain ⟨b, hb, hkb⟩ := List.mem_map.mp hmem
      simp [find?_eq_some.mpr ⟨hb, hkb⟩, hkb]
    · rw [if_neg hk]
      cases hf : t.find? k with
      | none => rfl
      | some b =>
        have : key b ≠ key a := fun h => hk (h.symm.trans (find?_eq_some.mp hf).2)
        simp [this]

end Table

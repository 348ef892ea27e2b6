import DnsManager.ForStd.Table

/-!
# Tables that only grow

`Extends r t t'` says that every row of `t` is still in its place in `t'`, as the relation `r`
lets it become; `t'` may have further rows behind. An `INSERT` extends a table, and so do an
`UPDATE` and an upsert whose assignments keep to `r`.
-/

namespace Table

variable {α κ : Type} {key : α → κ} {r : α → α → Prop} {t t' t'' : Table α key}

/-- Every row is in its place, as `r` lets it become. -/
def Extends (r : α → α → Prop) (t t' : Table α key) : Prop :=
  ∀ (n : Nat) (a : α), t.rows[n]? = some a → ∃ b, t'.rows[n]? = some b ∧ r a b

namespace Extends

theorem refl (hr : ∀ a, r a a) (t : Table α key) : Extends r t t := fun _ a ha => ⟨a, ha, hr a⟩

theorem trans (hr : ∀ {a b c}, r a b → r b c → r a c) (h : Extends r t t') (h' : Extends r t' t'') :
    Extends r t t'' := by
  intro n a ha
  obtain ⟨b, hb, hab⟩ := h n a ha
  obtain ⟨c, hc, hbc⟩ := h' n b hb
  exact ⟨c, hc, hr hab hbc⟩

/-- A row is still there, as `r` lets it become. -/
theorem exists_mem (h : Extends r t t') {a : α} (ha : a ∈ t) : ∃ b ∈ t', r a b := by
  obtain ⟨n, hn⟩ := List.mem_iff_getElem?.mp ha
  obtain ⟨b, hb, hab⟩ := h n a hn
  exact ⟨b, List.mem_of_getElem? hb, hab⟩

/-- Rows that never change are still there. -/
theorem mem (h : Extends Eq t t') {a : α} (ha : a ∈ t) : a ∈ t' := by
  obtain ⟨b, hb, rfl⟩ := h.exists_mem ha
  exact hb

theorem mem_keys (h : Extends r t t') (hkey : ∀ {a b}, r a b → key b = key a) {k : κ}
    (hk : k ∈ t.keys) : k ∈ t'.keys := by
  obtain ⟨a, ha, rfl⟩ := Table.mem_keys.mp hk
  obtain ⟨b, hb, hab⟩ := h.exists_mem ha
  exact Table.mem_keys.mpr ⟨b, hb, hkey hab⟩

/-- An insertion extends the table. -/
theorem of_insert [DecidableEq κ] (hr : ∀ a, r a a) {a : α} (h : t.insert a = some t') :
    Extends r t t' := by
  intro n b hb
  refine ⟨b, ?_, hr b⟩
  rw [(insert_eq_some h).1, List.getElem?_append_left (List.getElem?_eq_some_iff.mp hb).1]
  exact hb

/-- An `UPDATE` extends the table when its assignments keep to `r`. -/
theorem of_modify (hr : ∀ a, r a a) {p : α → Bool} {f : α → α} (hf : ∀ a, key (f a) = key a)
    (hrf : ∀ a, r a (f a)) : Extends r t (t.modify p f hf) := by
  intro n a ha
  refine ⟨if p a then f a else a, ?_, ?_⟩
  · simp [modify, ha]
  · split
    · exact hrf a
    · exact hr a

/-- An upsert extends the table when its assignments keep to `r`. -/
theorem of_upsert [DecidableEq κ] (hr : ∀ a, r a a) (a : α) {onConflict : α → α}
    {hc : ∀ b, key (onConflict b) = key b} (hrc : ∀ b, r b (onConflict b)) :
    Extends r t (t.upsert a onConflict hc) := by
  unfold upsert
  split
  · next hi => exact of_insert hr hi
  · exact of_modify hr hc hrc

/-- The row of a key is still found under it, as `r` lets it become. -/
theorem find?_eq_some [DecidableEq κ] (h : Extends r t t') (hkey : ∀ {a b}, r a b → key b = key a)
    {k : κ} {a : α} (ha : t.find? k = some a) : ∃ b, t'.find? k = some b ∧ r a b := by
  obtain ⟨hmem, rfl⟩ := Table.find?_eq_some.mp ha
  obtain ⟨b, hb, hab⟩ := h.exists_mem hmem
  exact ⟨b, Table.find?_eq_some.mpr ⟨hb, hkey hab⟩, hab⟩

end Extends

end Table

import XYChat.Lib.Table

/-!
# What stays in a table

A table extends another when it has the rows of the other first, as far as a view
of them shows; its rows come from the other when those whose keys the other gave
out are rows of the other, changed as a relation has it; and it retains the other
when these are not changed at all, and only what has expired is not there. The
first two are preorders, and so is the last where what has expired stays expired;
the statements on a table keep to them.
-/

namespace XYChat.Lib.Table

variable {ρ : Type} [Keyed ρ] {α : Type} {t t' t'' : Table ρ}

/-! ## Growing -/

/-- What `view` shows of the rows of `t` is where the rows of `t'` start. -/
def Extends (view : ρ → α) (t t' : Table ρ) : Prop := t.rows.map view <+: t'.rows.map view

namespace Extends

variable {view : ρ → α}

theorem refl (t : Table ρ) : Extends view t t := List.prefix_refl _

theorem trans (h : Extends view t t') (h' : Extends view t' t'') : Extends view t t'' :=
  List.IsPrefix.trans h h'

theorem insert {r : ρ} (hrows : t'.rows = t.rows ++ [r]) : Extends view t t' :=
  ⟨[view r], by rw [hrows, List.map_append, List.map_singleton]⟩

/-- An update that the view does not show. -/
theorem update {p : ρ → Bool} {f : ρ → ρ}
    (hrows : t'.rows = t.rows.map fun r => if p r then f r else r)
    (h : ∀ r, view (f r) = view r) : Extends view t t' := by
  refine ⟨[], ?_⟩
  rw [List.append_nil, hrows, List.map_map]
  refine List.map_congr_left fun r _ => ?_
  show view r = view (if p r then f r else r)
  split
  · exact (h r).symm
  · rfl

/-- Each row is still there, as far as the view shows. -/
theorem mem {r : ρ} (h : Extends view t t') (hr : r ∈ t.rows) : ∃ r' ∈ t'.rows, view r' = view r :=
  List.mem_map.mp (h.subset (List.mem_map.mpr ⟨r, hr, rfl⟩))

/-- Where the whole row is shown, the rows are where the others start. -/
theorem rows (h : Extends id t t') : t.rows <+: t'.rows := by
  have := h
  unfold Extends at this
  rwa [List.map_id, List.map_id] at this

end Extends

/-! ## Evolving -/

/-- No row comes back, and each that is left of the old ones is related to what it
was. -/
structure Evolves (R : ρ → ρ → Prop) (t t' : Table ρ) : Prop where
  lastId_le : t.lastId ≤ t'.lastId
  old : ∀ r' ∈ t'.rows, key r' ≤ t.lastId → ∃ r ∈ t.rows, key r = key r' ∧ R r r'

namespace Evolves

variable {R : ρ → ρ → Prop}

theorem refl (hrefl : ∀ r, R r r) (t : Table ρ) : Evolves R t t :=
  ⟨Int.le_refl _, fun r hr _ => ⟨r, hr, rfl, hrefl r⟩⟩

theorem trans (htrans : ∀ a b c, R a b → R b c → R a c) (h : Evolves R t t')
    (h' : Evolves R t' t'') : Evolves R t t'' := by
  refine ⟨Int.le_trans h.lastId_le h'.lastId_le, fun r'' hr'' hold => ?_⟩
  obtain ⟨r', hr', hkey', hrel'⟩ := h'.old r'' hr'' (Int.le_trans hold h.lastId_le)
  obtain ⟨r, hr, hkey, hrel⟩ := h.old r' hr' (by omega)
  exact ⟨r, hr, hkey.trans hkey', htrans r r' r'' hrel hrel'⟩

theorem insert {r : ρ} (hrows : t'.rows = t.rows ++ [r]) (hlast : t'.lastId = t.lastId + 1)
    (hkey : key r = t.lastId + 1) (hrefl : ∀ r, R r r) : Evolves R t t' := by
  refine ⟨by omega, fun r' hr' hold => ?_⟩
  rw [hrows, List.mem_append, List.mem_singleton] at hr'
  rcases hr' with hr' | rfl
  · exact ⟨r', hr', rfl, hrefl r'⟩
  · omega

theorem update {p : ρ → Bool} {f : ρ → ρ}
    (hrows : t'.rows = t.rows.map fun r => if p r then f r else r) (hlast : t'.lastId = t.lastId)
    (hkey : ∀ r, key (f r) = key r) (hrefl : ∀ r, R r r) (h : ∀ r, p r = true → R r (f r)) :
    Evolves R t t' := by
  refine ⟨by omega, fun r' hr' _ => ?_⟩
  rw [hrows] at hr'
  obtain ⟨r, hr, rfl⟩ := List.mem_map.mp hr'
  by_cases hp : p r = true
  · rw [if_pos hp]
    exact ⟨r, hr, (hkey r).symm, h r hp⟩
  · rw [if_neg hp]
    exact ⟨r, hr, rfl, hrefl r⟩

theorem delete {p : ρ → Bool} (hrows : t'.rows = t.rows.filter p) (hlast : t'.lastId = t.lastId)
    (hrefl : ∀ r, R r r) : Evolves R t t' := by
  refine ⟨by omega, fun r' hr' _ => ?_⟩
  rw [hrows] at hr'
  exact ⟨r', (List.mem_filter.mp hr').1, rfl, hrefl r'⟩

/-- A row that is left is related to what it was. -/
theorem rel {r r' : ρ} (h : Evolves R t t') (hr : r ∈ t.rows) (hr' : r' ∈ t'.rows)
    (hkey : key r' = key r) : R r r' := by
  obtain ⟨r₀, hr₀, hkey₀, hrel⟩ := h.old r' hr' (by
    rw [hkey]
    exact Table.le_lastId hr)
  rwa [Table.key_inj hr₀ hr (hkey₀.trans hkey)] at hrel

end Evolves

/-! ## Forgetting -/

/-- Rows are added and never changed, and those that go have `expired`. -/
structure Retains (expired : ρ → Prop) (t t' : Table ρ) : Prop where
  evolves : Evolves Eq t t'
  stays : ∀ r ∈ t.rows, r ∈ t'.rows ∨ expired r

namespace Retains

variable {expired expired' : ρ → Prop}

theorem refl (t : Table ρ) : Retains expired t t :=
  ⟨.refl (fun _ => rfl) t, fun _ hr => .inl hr⟩

/-- What has expired stays expired. -/
theorem trans (h : Retains expired t t') (h' : Retains expired' t' t'')
    (hexpired : ∀ r, expired r → expired' r) : Retains expired' t t'' := by
  refine ⟨h.evolves.trans (fun _ _ _ => Eq.trans) h'.evolves, fun r hr => ?_⟩
  rcases h.stays r hr with hr' | hgone
  · exact h'.stays r hr'
  · exact .inr (hexpired r hgone)

theorem insert {r : ρ} (hrows : t'.rows = t.rows ++ [r]) (hlast : t'.lastId = t.lastId + 1)
    (hkey : key r = t.lastId + 1) : Retains expired t t' := by
  refine ⟨.insert hrows hlast hkey fun _ => rfl, fun r' hr' => .inl ?_⟩
  rw [hrows]
  exact List.mem_append_left _ hr'

theorem delete {p : ρ → Bool} (hrows : t'.rows = t.rows.filter p) (hlast : t'.lastId = t.lastId)
    (hexpired : ∀ r, p r = false → expired r) : Retains expired t t' := by
  refine ⟨.delete hrows hlast fun _ => rfl, fun r hr => ?_⟩
  cases hp : p r with
  | false => exact .inr (hexpired r hp)
  | true =>
      refine .inl ?_
      rw [hrows]
      exact List.mem_filter.mpr ⟨hr, hp⟩

end Retains

end XYChat.Lib.Table

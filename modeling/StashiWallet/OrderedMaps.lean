import Mathlib

/-!
# Ordered maps

A map that keeps its keys in order is determined by its entries, and so is the list of them. Two
maps may hold the same entries under different keys, as a table and what it stands for do: where
the keys come in the same order, the lists of entries correspond one by one
(`toList_of_corresponds`).
-/

namespace OrderedMaps

open Std

variable {α β V W : Type*} {cmp : α → α → Ordering} {cmp' : β → β → Ordering}
  [TransCmp cmp] [LawfulEqCmp cmp] [TransCmp cmp'] [LawfulEqCmp cmp']

omit [LawfulEqCmp cmp'] in
theorem nodup_of_ordered {list : List (β × W)}
    (hlist : list.Pairwise fun a b => cmp' a.1 b.1 = .lt) : list.Nodup := by
  refine hlist.imp fun {a b} hlt heq => ?_
  rw [heq, (ReflCmp.compare_self : cmp' b.1 b.1 = .eq)] at hlt
  cases hlt

omit [LawfulEqCmp cmp'] in
/-- Lists in increasing order of keys with the same entries are equal. -/
theorem eq_of_ordered {first second : List (β × W)}
    (hfirst : first.Pairwise fun a b => cmp' a.1 b.1 = .lt)
    (hsecond : second.Pairwise fun a b => cmp' a.1 b.1 = .lt)
    (hmem : ∀ entry, entry ∈ first ↔ entry ∈ second) : first = second := by
  have hasymm : ∀ a b : β × W, cmp' a.1 b.1 = .lt → cmp' b.1 a.1 = .lt → a = b := by
    intro a b hlt hgt
    rw [OrientedCmp.gt_of_lt hlt] at hgt
    cases hgt
  exact List.Perm.eq_of_pairwise (fun a b _ _ => hasymm a b) hfirst hsecond
    ((List.perm_ext_iff_of_nodup (nodup_of_ordered hfirst) (nodup_of_ordered hsecond)).mpr hmem)

/-- The entries of a map that holds those of another under new keys, in the same order. -/
theorem toList_of_corresponds {m : ExtTreeMap α V cmp} {n : ExtTreeMap β W cmp'} {key : α → β}
    {value : V → W}
    (hmono : ∀ a v b w, m[a]? = some v → m[b]? = some w → cmp a b = .lt →
      cmp' (key a) (key b) = .lt)
    (hstored : ∀ a v, m[a]? = some v → n[key a]? = some (value v))
    (hknown : ∀ k w, n[k]? = some w → ∃ a v, m[a]? = some v ∧ k = key a) :
    n.toList = m.toList.map fun entry => (key entry.1, value entry.2) := by
  refine eq_of_ordered n.ordered_keys_toList ?_ ?_
  · rw [List.pairwise_map]
    refine m.ordered_keys_toList.imp_of_mem fun {a b} ha hb hlt => ?_
    exact hmono a.1 a.2 b.1 b.2 (ExtTreeMap.mem_toList_iff_getElem?_eq_some.mp ha)
      (ExtTreeMap.mem_toList_iff_getElem?_eq_some.mp hb) hlt
  · rintro ⟨k, w⟩
    rw [ExtTreeMap.mem_toList_iff_getElem?_eq_some, List.mem_map]
    constructor
    · intro hentry
      obtain ⟨a, v, ha, rfl⟩ := hknown k w hentry
      refine ⟨(a, v), ExtTreeMap.mem_toList_iff_getElem?_eq_some.mpr ha, ?_⟩
      rw [← Option.some.inj ((hstored a v ha).symm.trans hentry)]
    · rintro ⟨⟨a, v⟩, ha, heq⟩
      obtain ⟨rfl, rfl⟩ := Prod.mk.inj heq
      exact hstored a v (ExtTreeMap.mem_toList_iff_getElem?_eq_some.mp ha)

/-- A map over a finite type of keys has no more entries than there are keys. -/
theorem length_toList_le_card [Fintype α] (m : ExtTreeMap α V cmp) :
    m.toList.length ≤ Fintype.card α := by
  have hnodup : (m.toList.map Prod.fst).Nodup := by
    rw [List.Nodup, List.pairwise_map]
    refine m.ordered_keys_toList.imp fun {a b} hlt heq => ?_
    rw [heq, (ReflCmp.compare_self : cmp b.1 b.1 = .eq)] at hlt
    cases hlt
  rw [← List.length_map Prod.fst]
  exact hnodup.length_le_card

end OrderedMaps

import Mathlib.Data.List.AList
import Mathlib.Data.List.Induction

/-!
# Bulk updates of a finite map

A map that is kept in memory beside a table is updated a list at a time: a list of new
entries is inserted in order, so that the last one of a key counts, and a list of keys is
erased. What a lookup finds afterwards is all that the users of such a map need.
-/

namespace BulkMap

variable {κ ν : Type} [DecidableEq κ]

/-- The entries inserted one after the other. -/
def insertAll (map : AList (fun _ : κ => ν)) (entries : List (κ × ν)) : AList (fun _ : κ => ν) :=
  entries.foldl (fun map entry => map.insert entry.1 entry.2) map

def eraseAll (map : AList (fun _ : κ => ν)) (keys : List κ) : AList (fun _ : κ => ν) :=
  keys.foldl (fun map key => map.erase key) map

@[simp]
theorem insertAll_concat (map : AList (fun _ : κ => ν)) (entries : List (κ × ν)) (key : κ)
    (value : ν) :
    insertAll map (entries ++ [(key, value)]) = (insertAll map entries).insert key value := by
  simp [insertAll]

variable {map : AList (fun _ : κ => ν)}

theorem lookup_eraseAll_of_notMem {keys : List κ} {key : κ} (h : key ∉ keys) :
    (eraseAll map keys).lookup key = map.lookup key := by
  induction keys generalizing map with
  | nil => rfl
  | cons first rest ih =>
    rw [List.mem_cons, not_or] at h
    exact (ih h.2).trans (AList.lookup_erase_ne h.1)

variable {entries : List (κ × ν)}

/-- When every entry of a key has the same value and the key has an entry, that value is what
is found. -/
theorem lookup_insertAll_of_mem {key : κ} {value : ν} (hmem : (key, value) ∈ entries)
    (hsame : ∀ entry ∈ entries, entry.1 = key → entry.2 = value) :
    (insertAll map entries).lookup key = some value := by
  induction entries using List.reverseRecOn with
  | nil => cases hmem
  | append_singleton entries last ih =>
    rw [insertAll_concat]
    by_cases hlast : last.1 = key
    · have hvalue : last.2 = value := hsame last (by simp) hlast
      rw [hlast, hvalue, AList.lookup_insert]
    · have hmem' : (key, value) ∈ entries := by
        rcases List.mem_append.mp hmem with h | h
        · exact h
        · rw [List.mem_singleton] at h
          exact absurd (congrArg Prod.fst h).symm hlast
      rw [AList.lookup_insert_ne (Ne.symm hlast)]
      exact ih hmem' fun entry hentry => hsame entry (by simp [hentry])

/-- What is found was inserted or was there before. -/
theorem mem_of_lookup_insertAll {key : κ} {value : ν}
    (h : (insertAll map entries).lookup key = some value) :
    (key, value) ∈ entries ∨ map.lookup key = some value := by
  induction entries using List.reverseRecOn with
  | nil => exact .inr h
  | append_singleton entries last ih =>
    rw [insertAll_concat] at h
    by_cases hlast : key = last.1
    · subst hlast
      rw [AList.lookup_insert, Option.some.injEq] at h
      subst h
      exact .inl (by simp)
    · rw [AList.lookup_insert_ne hlast] at h
      exact (ih h).imp_left fun hmem => by simp [hmem]

theorem lookup_insertAll_isSome {key : κ} (h : key ∈ entries.map Prod.fst) :
    ((insertAll map entries).lookup key).isSome = true := by
  induction entries using List.reverseRecOn with
  | nil => cases h
  | append_singleton entries last ih =>
    rw [insertAll_concat]
    by_cases hlast : key = last.1
    · rw [hlast, AList.lookup_insert]
      rfl
    · rw [AList.lookup_insert_ne hlast]
      refine ih ?_
      rw [List.map_append, List.mem_append] at h
      exact h.resolve_right fun hmem => hlast (List.mem_singleton.mp hmem)

end BulkMap

import Mathlib.Algebra.BigOperators.Group.List.Basic
import Mathlib.Data.List.AList
import Mathlib.Data.List.Dedup
import Mathlib.Data.List.Induction
import Mathlib.Data.List.Sort

/-!
# Folding entries by key

A list of entries is folded into a map: the first entry of a key starts a value, each later
one is merged into it, and a merge may fail. What a key ends up with is the fold of its own
entries (`lookup_fold`), and the whole fold fails exactly when the fold of some key does
(`fold_eq_error`).

The values of such a map come in no particular order. Listed by a comparator that tells any two
of them apart, they come in one order only (`listBy_perm`).
-/

namespace KeyedFold

section Fold

variable {κ α β : Type} [DecidableEq κ]
variable (key : α → κ) (start : α → β) (step : β → α → Except ε β)

/-- An entry merged into the value of its key, if there is one. -/
def extend (value : Option β) (entry : α) : Except ε β :=
  match value with
  | some value => step value entry
  | none => .ok (start entry)

/-- An entry put into the map. -/
def absorb (map : AList (fun _ : κ => β)) (entry : α) : Except ε (AList (fun _ : κ => β)) :=
  (extend start step (map.lookup (key entry)) entry).map
    (fun value => map.insert (key entry) value)

/-- All entries put into the map, in order. -/
def fold (entries : List α) : Except ε (AList (fun _ : κ => β)) :=
  entries.foldlM (absorb key start step) ∅

/-- The entries of one key folded into one value. -/
def foldGroup (entries : List α) : Except ε (Option β) :=
  entries.foldlM (fun value entry => (extend start step value entry).map some) none

variable {key start step}

theorem fold_concat (entries : List α) (entry : α) :
    fold key start step (entries ++ [entry]) =
      (fold key start step entries >>= fun map => absorb key start step map entry) := by
  simp [fold, List.foldlM_append]

theorem foldGroup_concat (entries : List α) (entry : α) :
    foldGroup start step (entries ++ [entry]) =
      (foldGroup start step entries >>= fun value =>
        (extend start step value entry).map some) := by
  simp [foldGroup, List.foldlM_append]

theorem lookup_absorb {map map' : AList (fun _ : κ => β)} {entry : α}
    (h : absorb key start step map entry = .ok map') (k : κ) :
    if key entry = k then
      (extend start step (map.lookup k) entry).map some = .ok (map'.lookup k)
    else map'.lookup k = map.lookup k := by
  unfold absorb at h
  cases hvalue : extend start step (map.lookup (key entry)) entry with
  | error e =>
    rw [hvalue] at h
    cases h
  | ok value =>
    rw [hvalue] at h
    obtain rfl := Except.ok.inj h
    by_cases hkey : key entry = k
    · subst hkey
      rw [if_pos rfl, hvalue, AList.lookup_insert]
      rfl
    · rw [if_neg hkey, AList.lookup_insert_ne (Ne.symm hkey)]

/-- What the map holds under a key is the fold of the entries of that key. -/
theorem lookup_fold {entries : List α} {map : AList (fun _ : κ => β)}
    (h : fold key start step entries = .ok map) (k : κ) :
    foldGroup start step (entries.filter (fun entry => decide (key entry = k))) =
      .ok (map.lookup k) := by
  induction entries using List.reverseRecOn generalizing map with
  | nil =>
    obtain rfl := Except.ok.inj h
    rfl
  | append_singleton entries entry ih =>
    rw [fold_concat] at h
    cases hmap : fold key start step entries with
    | error e =>
      rw [hmap] at h
      cases h
    | ok before =>
      rw [hmap] at h
      have hstep := lookup_absorb h k
      rw [List.filter_append]
      by_cases hkey : key entry = k
      · rw [if_pos hkey] at hstep
        rw [List.filter_singleton, decide_eq_true hkey, cond_true, foldGroup_concat, ih hmap]
        exact hstep
      · rw [if_neg hkey] at hstep
        rw [List.filter_singleton, decide_eq_false hkey, cond_false, List.append_nil, ih hmap,
          hstep]

/-- An error of the fold is an error of the entries of one key. -/
theorem fold_eq_error {entries : List α} {e : ε} (h : fold key start step entries = .error e) :
    ∃ k, foldGroup start step (entries.filter (fun entry => decide (key entry = k))) =
      .error e := by
  induction entries using List.reverseRecOn with
  | nil => cases h
  | append_singleton entries entry ih =>
    rw [fold_concat] at h
    cases hmap : fold key start step entries with
    | error e' =>
      rw [hmap] at h
      obtain rfl : e' = e := Except.error.inj h
      obtain ⟨k, hk⟩ := ih hmap
      refine ⟨k, ?_⟩
      rw [List.filter_append]
      by_cases hkey : key entry = k
      · rw [List.filter_singleton, decide_eq_true hkey, cond_true, foldGroup_concat, hk]
        rfl
      · rw [List.filter_singleton, decide_eq_false hkey, cond_false, List.append_nil, hk]
    | ok before =>
      rw [hmap] at h
      refine ⟨key entry, ?_⟩
      rw [List.filter_append, List.filter_singleton, decide_eq_true rfl, cond_true,
        foldGroup_concat, lookup_fold hmap]
      show (extend start step (before.lookup (key entry)) entry).map some = .error e
      cases hvalue : extend start step (before.lookup (key entry)) entry with
      | error e' =>
        have h' : absorb key start step before entry = .error e := h
        unfold absorb at h'
        rw [hvalue] at h'
        obtain rfl : e' = e := Except.error.inj h'
        rfl
      | ok value =>
        have h' : absorb key start step before entry = .error e := h
        unfold absorb at h'
        rw [hvalue] at h'
        cases h'

/-- Nothing is folded for a key exactly when it has no entries. -/
theorem foldGroup_eq_none {entries : List α} (h : foldGroup start step entries = .ok none) :
    entries = [] := by
  cases entries using List.reverseRecOn with
  | nil => rfl
  | append_singleton entries entry =>
    rw [foldGroup_concat] at h
    cases hvalue : foldGroup start step entries with
    | error e =>
      rw [hvalue] at h
      cases h
    | ok value =>
      rw [hvalue] at h
      change (extend start step value entry).map some = .ok none at h
      cases hext : extend start step value entry with
      | error e =>
        rw [hext] at h
        cases h
      | ok value' =>
        rw [hext] at h
        cases h

/-- An error stays, whatever entries follow. -/
theorem fold_append_error {entries : List α} {e : ε} (h : fold key start step entries = .error e)
    (more : List α) : fold key start step (entries ++ more) = .error e := by
  unfold fold at h ⊢
  rw [List.foldlM_append, h]
  rfl

end Fold

/-! ## Merges that cannot fail -/

section Total

variable {κ α β : Type} [DecidableEq κ]
variable {key : α → κ} {start : α → β} {merge : β → α → β}

variable (key start merge)

/-- An entry put into a map by a merge that cannot fail. -/
def put (map : AList (fun _ : κ => β)) (entry : α) : AList (fun _ : κ => β) :=
  map.insert (key entry)
    (((map.lookup (key entry)).map (merge · entry)).getD (start entry))

/-- The entries of one key, merged. -/
def combine (entries : List α) : Option β :=
  entries.head?.map fun first => entries.tail.foldl merge (start first)

variable {key start merge}

theorem combine_concat (entries : List α) (entry : α) :
    combine start merge (entries ++ [entry]) =
      some (((combine start merge entries).map (merge · entry)).getD (start entry)) := by
  cases entries with
  | nil => rfl
  | cons first rest => simp [combine, List.foldl_append]

theorem lookup_put (map : AList (fun _ : κ => β)) (entry : α) (k : κ) :
    (put key start merge map entry).lookup k =
      if key entry = k then some (((map.lookup k).map (merge · entry)).getD (start entry))
      else map.lookup k := by
  unfold put
  by_cases hkey : key entry = k
  · subst hkey
    rw [AList.lookup_insert, if_pos rfl]
  · rw [AList.lookup_insert_ne (Ne.symm hkey), if_neg hkey]

/-- What a map of put entries holds under a key. -/
theorem lookup_foldl_put (entries : List α) (k : κ) :
    (entries.foldl (put key start merge) ∅).lookup k =
      combine start merge (entries.filter (fun entry => decide (key entry = k))) := by
  induction entries using List.reverseRecOn with
  | nil => rfl
  | append_singleton entries entry ih =>
    rw [List.foldl_append, List.foldl_cons, List.foldl_nil, List.filter_append, lookup_put, ih,
      List.filter_singleton]
    by_cases hkey : key entry = k
    · rw [if_pos hkey, decide_eq_true hkey, cond_true, combine_concat]
    · rw [if_neg hkey, decide_eq_false hkey, cond_false, List.append_nil]

end Total

/-! ## Sums by key -/

section Sums

variable {κ α M : Type} [DecidableEq κ] [AddCommMonoid M] {key : α → κ} {f : α → M}

theorem sum_map_filter_add_not (p : α → Bool) (entries : List α) :
    ((entries.filter p).map f).sum + ((entries.filter (fun entry => !p entry)).map f).sum =
      (entries.map f).sum := by
  induction entries with
  | nil => simp
  | cons entry rest ih =>
    cases hp : p entry with
    | true => simp [hp, ← ih, add_assoc]
    | false => simp [hp, ← ih, add_left_comm]

/-- Entries added up key by key. -/
theorem sum_map_filter_keys {keys : List κ} (hnodup : keys.Nodup) {entries : List α}
    (hkeys : ∀ entry ∈ entries, key entry ∈ keys) :
    (keys.map (fun k => ((entries.filter (fun entry => decide (key entry = k))).map f).sum)).sum =
      (entries.map f).sum := by
  induction keys generalizing entries with
  | nil =>
    cases entries with
    | nil => rfl
    | cons entry rest => exact absurd (hkeys entry List.mem_cons_self) List.not_mem_nil
  | cons k keys ih =>
    obtain ⟨hk, hrest⟩ := List.nodup_cons.mp hnodup
    rw [List.map_cons, List.sum_cons,
      ← sum_map_filter_add_not (f := f) (fun entry => decide (key entry = k)) entries]
    congr 1
    rw [← @ih hrest (entries.filter fun entry => !decide (key entry = k))]
    · refine congrArg List.sum (List.map_congr_left fun k' hk' => ?_)
      rw [List.filter_filter]
      refine congrArg (fun list => (List.map f list).sum) (List.filter_congr fun entry _ => ?_)
      by_cases hkey : key entry = k'
      · have hne : ¬ key entry = k := fun heq => hk (heq ▸ hkey ▸ hk')
        rw [decide_eq_true hkey, decide_eq_false hne]
        rfl
      · rw [decide_eq_false hkey, Bool.false_and]
    · intro entry hentry
      obtain ⟨hin, hne⟩ := List.mem_filter.mp hentry
      rcases List.mem_cons.mp (hkeys entry hin) with heq | hmem
      · rw [decide_eq_true heq] at hne
        cases hne
      · exact hmem

end Sums

/-! ## The values of a map -/

section Values

variable {κ β : Type} [DecidableEq κ]

def values (map : AList (fun _ : κ => β)) : List β := map.entries.map (·.2)

theorem mem_values {map : AList (fun _ : κ => β)} {value : β} :
    value ∈ values map ↔ ∃ k, map.lookup k = some value := by
  unfold values
  rw [List.mem_map]
  constructor
  · rintro ⟨⟨k, found⟩, hmem, rfl⟩
    exact ⟨k, AList.mem_lookup_iff.mpr hmem⟩
  · rintro ⟨k, hk⟩
    exact ⟨⟨k, value⟩, AList.mem_lookup_iff.mp hk, rfl⟩

/-- Maps that hold the same have the same values. -/
theorem values_perm {a b : AList (fun _ : κ => β)} (h : ∀ k, a.lookup k = b.lookup k) :
    (values a).Perm (values b) := by
  refine List.Perm.map _ (List.lookup_ext a.nodupKeys b.nodupKeys fun k value => ?_)
  show value ∈ a.lookup k ↔ value ∈ b.lookup k
  rw [h k]

/-- Values that name their key come once each. -/
theorem values_pairwise {map : AList (fun _ : κ => β)} {keyOf : β → κ}
    (h : ∀ k value, map.lookup k = some value → keyOf value = k) :
    (values map).Pairwise (fun a b => keyOf a ≠ keyOf b) := by
  unfold values
  rw [List.pairwise_map]
  refine List.Pairwise.imp_of_mem ?_ (List.nodupKeys_iff_pairwise.mp map.nodupKeys)
  intro a b ha hb hne heq
  apply hne
  rw [← h a.1 a.2 (AList.mem_lookup_iff.mpr ha), ← h b.1 b.2 (AList.mem_lookup_iff.mpr hb), heq]

/-- Of values with different keys, one has a given value's key. -/
theorem filter_key_eq_singleton {keyOf : β → κ} {list : List β}
    (h : list.Pairwise (fun a b => keyOf a ≠ keyOf b)) {value : β} (hvalue : value ∈ list) :
    list.filter (fun other => decide (keyOf other = keyOf value)) = [value] := by
  induction list with
  | nil => cases hvalue
  | cons first rest ih =>
    obtain ⟨hfirst, hrest⟩ := List.pairwise_cons.mp h
    rcases List.mem_cons.mp hvalue with rfl | hmem
    · have hnil : rest.filter (fun other => decide (keyOf other = keyOf value)) = [] := by
        rw [List.filter_eq_nil_iff]
        intro other hother
        simpa using (hfirst other hother).symm
      rw [List.filter_cons_of_pos (by simp), hnil]
    · rw [List.filter_cons_of_neg (by simpa using hfirst value hmem)]
      exact ih hrest hmem

end Values

/-! ## Listing by a comparator -/

section Listing

variable {β γ : Type}

def ascending [Ord γ] (f : β → γ) (a b : β) : Ordering := compare (f a) (f b)

def descending [Ord γ] (f : β → γ) (a b : β) : Ordering := compare (f b) (f a)

instance [Ord γ] [Std.TransOrd γ] (f : β → γ) : Std.TransCmp (ascending f) :=
  inferInstanceAs (Std.TransCmp (compareOn f))

instance [Ord γ] [Std.TransOrd γ] (f : β → γ) : Std.TransCmp (descending f) :=
  inferInstanceAs (Std.TransCmp (fun a b => compareOn f b a))

theorem eq_of_ascending [Ord γ] [Std.LawfulEqOrd γ] {f : β → γ} {a b : β}
    (h : ascending f a b = .eq) : f a = f b := Std.LawfulEqOrd.eq_of_compare h

theorem eq_of_descending [Ord γ] [Std.LawfulEqOrd γ] {f : β → γ} {a b : β}
    (h : descending f a b = .eq) : f a = f b := (Std.LawfulEqOrd.eq_of_compare h).symm

/-- `sort_by`. -/
def listBy (cmp : β → β → Ordering) (values : List β) : List β :=
  values.insertionSort (fun a b => (cmp a b).isLE = true)

variable {cmp : β → β → Ordering}

theorem listBy_perm_self (values : List β) : (listBy cmp values).Perm values :=
  List.perm_insertionSort _ values

@[simp]
theorem mem_listBy {values : List β} {value : β} : value ∈ listBy cmp values ↔ value ∈ values :=
  (listBy_perm_self values).mem_iff

variable [Std.TransCmp cmp]

/-- A sorted list has no later element before an earlier one. -/
theorem listBy_pairwise (values : List β) :
    (listBy cmp values).Pairwise (fun a b => (cmp a b).isLE = true) := by
  have : Std.Total (fun a b => (cmp a b).isLE = true) :=
    ⟨fun a b => by
      have hswap : cmp b a = (cmp a b).swap := Std.OrientedCmp.eq_swap
      rw [hswap]
      cases cmp a b <;> simp⟩
  have : IsTrans β (fun a b => (cmp a b).isLE = true) :=
    ⟨fun _ _ _ => Std.TransCmp.isLE_trans⟩
  exact List.pairwise_insertionSort _ values

/-- Values the comparator tells apart are listed in one order. -/
theorem listBy_perm {a b : List β} (hperm : a.Perm b)
    (heq : ∀ x ∈ a, ∀ y ∈ b, cmp x y = .eq → x = y) : listBy cmp a = listBy cmp b := by
  refine List.Perm.eq_of_pairwise ?_ (listBy_pairwise a) (listBy_pairwise b)
    (((listBy_perm_self a).trans hperm).trans (listBy_perm_self b).symm)
  intro x y hx hy hxy hyx
  exact heq x (mem_listBy.mp hx) y (mem_listBy.mp hy) (Std.OrientedCmp.isLE_antisymm hxy hyx)

end Listing

end KeyedFold

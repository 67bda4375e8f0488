import Std.Data.ExtTreeMap
import Std.Data.ExtTreeSet

namespace Spreadsheet

variable {κ α : Type} [Ord κ] [Std.TransOrd κ]

namespace SortedMap

variable {m : Std.ExtTreeMap κ α} {entries : List (κ × α)}

theorem all_eq_all_toList (holds : κ → α → Bool) :
    m.all holds = m.toList.all fun entry => holds entry.1 entry.2 := by
  have hloop : m.all holds = Id.run (do
      for entry in m do
        if holds entry.1 entry.2 = false then return false
      return true) := by
    obtain ⟨⟨m⟩⟩ := m
    induction m using Quotient.ind with
    | _ m => rfl
  rw [hloop, Std.ExtTreeMap.forIn_eq_forIn_toList]
  induction m.toList with
  | nil => rfl
  | cons entry rest ih =>
      rw [List.forIn_cons, List.all_cons]
      cases holds entry.1 entry.2 with
      | false => rfl
      | true => exact ih

theorem mem_of_getElem?_eq_some {k : κ} {v : α} (h : m[k]? = some v) : k ∈ m :=
  Std.ExtTreeMap.mem_iff_isSome_getElem?.mpr (Option.isSome_of_eq_some h)

variable [Std.LawfulEqOrd κ]

theorem all_eq_true_iff {holds : κ → α → Bool} :
    m.all holds = true ↔ ∀ k v, m[k]? = some v → holds k v = true := by
  rw [all_eq_all_toList, List.all_eq_true, Prod.forall]
  simp only [Std.ExtTreeMap.mem_toList_iff_getElem?_eq_some]

theorem mem_insert_iff (k key : κ) (v : α) : key ∈ m.insert k v ↔ key = k ∨ key ∈ m := by
  rw [Std.ExtTreeMap.mem_insert, Std.compare_eq_iff_eq, eq_comm]

theorem mem_erase_iff (k key : κ) : key ∈ m.erase k ↔ key ≠ k ∧ key ∈ m := by
  rw [Std.ExtTreeMap.mem_erase, ne_eq, Std.compare_eq_iff_eq, @eq_comm _ k]

theorem getElem?_filter_eq_some {keep : κ → α → Bool} {k : κ} {v : α} :
    (m.filter keep)[k]? = some v ↔ m[k]? = some v ∧ keep k v = true := by
  rw [Std.ExtTreeMap.getElem?_filter', Option.filter_eq_some_iff]

theorem getElem?_filter_key (m : Std.ExtTreeMap κ α) (keep : κ → Bool) (k : κ) :
    (m.filter fun k _ => keep k)[k]? = if keep k = true then m[k]? else none := by
  rw [Std.ExtTreeMap.getElem?_filter']
  cases m[k]? <;> simp [Option.filter_some]

theorem getElem?_filter_lt (m : Std.ExtTreeMap Nat α) (count index : Nat) :
    (m.filter fun index _ => decide (index < count))[index]? =
      if index < count then m[index]? else none := by
  have hfilter := getElem?_filter_key m (fun index => decide (index < count)) index
  simpa only [decide_eq_true_eq] using hfilter

variable [DecidableEq κ]

theorem getElem?_insert (m : Std.ExtTreeMap κ α) (k key : κ) (v : α) :
    (m.insert k v)[key]? = if key = k then some v else m[key]? := by
  rw [Std.ExtTreeMap.getElem?_insert]
  simp only [Std.compare_eq_iff_eq, @eq_comm _ key]

theorem ofList_of_perm (h : entries.Perm m.toList) : Std.ExtTreeMap.ofList entries = m := by
  apply Std.ExtTreeMap.ext_getElem?
  intro k
  cases hk : m[k]? with
  | none =>
      refine Std.ExtTreeMap.getElem?_ofList_of_contains_eq_false ?_
      rw [← Bool.not_eq_true, List.contains_iff_mem, (h.map Prod.fst).mem_iff,
        Std.ExtTreeMap.map_fst_toList_eq_keys, Std.ExtTreeMap.mem_keys,
        Std.ExtTreeMap.mem_iff_isSome_getElem?, hk]
      exact Bool.false_ne_true
  | some v =>
      refine Std.ExtTreeMap.getElem?_ofList_of_mem Std.ReflCmp.compare_self ?_
        (h.mem_iff.mpr (Std.ExtTreeMap.mem_toList_iff_getElem?_eq_some.mpr hk))
      exact h.symm.pairwise Std.ExtTreeMap.distinct_keys_toList fun hne heq =>
        hne (Std.OrientedCmp.eq_symm heq)

theorem ofList_toList (m : Std.ExtTreeMap κ α) : Std.ExtTreeMap.ofList m.toList = m :=
  ofList_of_perm (List.Perm.refl _)

end SortedMap

namespace SortedSet

variable [Std.LawfulEqOrd κ] {s : Std.ExtTreeSet κ}

theorem mem_insert_iff (k key : κ) : key ∈ s.insert k ↔ key = k ∨ key ∈ s := by
  rw [Std.ExtTreeSet.mem_insert, Std.compare_eq_iff_eq, eq_comm]

theorem mem_erase_iff (k key : κ) : key ∈ s.erase k ↔ key ≠ k ∧ key ∈ s := by
  rw [Std.ExtTreeSet.mem_erase, ne_eq, Std.compare_eq_iff_eq, @eq_comm _ k]

theorem insert_right_comm (s : Std.ExtTreeSet κ) (k key : κ) :
    (s.insert k).insert key = (s.insert key).insert k := by
  apply Std.ExtTreeSet.ext_mem
  intro other
  rw [mem_insert_iff, mem_insert_iff, mem_insert_iff, mem_insert_iff, or_left_comm]

variable {entries : List κ}

theorem size_ofList (h : entries.Nodup) :
    (Std.ExtTreeSet.ofList entries).size = entries.length := by
  refine Std.ExtTreeSet.size_ofList (h.imp fun hne heq => ?_)
  exact hne (Std.LawfulEqOrd.eq_of_compare heq)

variable [DecidableEq κ]

theorem mem_ofList {k : κ} : k ∈ Std.ExtTreeSet.ofList entries ↔ k ∈ entries := by
  rw [Std.ExtTreeSet.mem_ofList, List.contains_iff_mem]

theorem ofList_toList (s : Std.ExtTreeSet κ) : Std.ExtTreeSet.ofList s.toList = s := by
  apply Std.ExtTreeSet.ext_mem
  intro k
  rw [mem_ofList, Std.ExtTreeSet.mem_toList]

end SortedSet

end Spreadsheet

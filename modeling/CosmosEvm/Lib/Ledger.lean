import Mathlib.Data.Finmap
import Mathlib.Algebra.Order.BigOperators.Group.Finset
import Mathlib.Tactic.Abel
import Mathlib.Tactic.Linarith

/-!
# Sparse integer ledgers

A ledger is a finite map to the integers that reads zero where it has no entry.
-/

namespace CosmosEvm.SparseLedger

variable {Key : Type} [DecidableEq Key] (ledger : Finmap fun _ : Key => ℤ)

def valueAt (key : Key) : ℤ := (ledger.lookup key).getD 0

def total : ℤ := ∑ key ∈ ledger.keys, valueAt ledger key

/-- Holding `value` under `key`, where zero is held as no entry. -/
def assign (key : Key) (value : ℤ) : Finmap fun _ : Key => ℤ :=
  if value = 0 then ledger.erase key else ledger.insert key value

theorem valueAt_eq_zero_of_notMem_keys {ledger : Finmap fun _ : Key => ℤ} {key : Key}
    (hkey : key ∉ ledger.keys) : valueAt ledger key = 0 := by
  rw [Finmap.mem_keys] at hkey
  simp [valueAt, Finmap.lookup_eq_none.mpr hkey]

theorem valueAt_assign (key other : Key) (value : ℤ) :
    valueAt (assign ledger key value) other =
      if other = key then value else valueAt ledger other := by
  unfold assign
  by_cases hvalue : value = 0
  · by_cases hother : other = key
    · subst hother
      simp [hvalue, valueAt]
    · simp [hvalue, hother, valueAt, Finmap.lookup_erase_ne hother]
  · by_cases hother : other = key
    · subst hother
      simp [hvalue, valueAt]
    · simp [hvalue, hother, valueAt, Finmap.lookup_insert_of_ne _ hother]

@[simp]
theorem valueAt_assign_self (key : Key) (value : ℤ) :
    valueAt (assign ledger key value) key = value := by
  simp [valueAt_assign]

theorem valueAt_assign_of_ne {key other : Key} (value : ℤ)
    (hother : other ≠ key) : valueAt (assign ledger key value) other = valueAt ledger other := by
  simp [valueAt_assign, hother]

theorem total_eq_sum_of_subset {ledger : Finmap fun _ : Key => ℤ} {domain : Finset Key}
    (hsubset : ledger.keys ⊆ domain) : total ledger = ∑ key ∈ domain, valueAt ledger key :=
  Finset.sum_subset hsubset fun _ _ hkey => valueAt_eq_zero_of_notMem_keys hkey

theorem keys_assign_subset (key : Key) (value : ℤ) :
    (assign ledger key value).keys ⊆ insert key ledger.keys := by
  intro other hother
  rw [Finmap.mem_keys] at hother
  rw [Finset.mem_insert, Finmap.mem_keys]
  unfold assign at hother
  split at hother
  · exact Or.inr (Finmap.mem_erase.mp hother).2
  · exact Finmap.mem_insert.mp hother

theorem total_assign (key : Key) (value : ℤ) :
    total (assign ledger key value) = total ledger + value - valueAt ledger key := by
  have hkey : key ∈ insert key ledger.keys := Finset.mem_insert_self key ledger.keys
  rw [total_eq_sum_of_subset (keys_assign_subset ledger key value),
    total_eq_sum_of_subset (Finset.subset_insert key ledger.keys),
    ← Finset.add_sum_erase _ _ hkey, ← Finset.add_sum_erase _ _ hkey]
  have hrest : ∑ other ∈ (insert key ledger.keys).erase key,
        valueAt (assign ledger key value) other =
      ∑ other ∈ (insert key ledger.keys).erase key, valueAt ledger other := by
    refine Finset.sum_congr rfl fun other hother => ?_
    exact valueAt_assign_of_ne ledger value (Finset.ne_of_mem_erase hother)
  rw [hrest, valueAt_assign_self]
  abel

theorem valueAt_add_valueAt_le_total {ledger : Finmap fun _ : Key => ℤ}
    (hnonneg : ∀ key, 0 ≤ valueAt ledger key) {left right : Key} (hne : left ≠ right) :
    valueAt ledger left + valueAt ledger right ≤ total ledger := by
  have hsubset : ledger.keys ⊆ insert left (insert right ledger.keys) :=
    (Finset.subset_insert _ _).trans (Finset.subset_insert _ _)
  rw [total_eq_sum_of_subset hsubset, ← Finset.sum_pair hne]
  refine Finset.sum_le_sum_of_subset_of_nonneg ?_ fun key _ _ => hnonneg key
  intro key hkey
  simp only [Finset.mem_insert, Finset.mem_singleton] at hkey
  rcases hkey with rfl | rfl <;> simp

theorem valueAt_le_total {ledger : Finmap fun _ : Key => ℤ}
    (hnonneg : ∀ key, 0 ≤ valueAt ledger key) (key : Key) :
    valueAt ledger key ≤ total ledger := by
  rw [total_eq_sum_of_subset (Finset.subset_insert key ledger.keys)]
  exact Finset.single_le_sum (fun other _ => hnonneg other) (Finset.mem_insert_self _ _)

def assignAll (entries : List (Key × ℤ)) : Finmap fun _ : Key => ℤ :=
  entries.foldl (fun ledger entry => assign ledger entry.1 entry.2) ledger

theorem valueAt_assignAll_of_notMem {entries : List (Key × ℤ)} {key : Key}
    (hkey : key ∉ entries.map Prod.fst) : valueAt (assignAll ledger entries) key = valueAt ledger key := by
  induction entries generalizing ledger with
  | nil => rfl
  | cons entry entries ih =>
    rw [List.map_cons, List.mem_cons, not_or] at hkey
    exact (ih _ hkey.2).trans (valueAt_assign_of_ne ledger entry.2 hkey.1)

theorem valueAt_assignAll_of_mem {entries : List (Key × ℤ)}
    (hnodup : (entries.map Prod.fst).Nodup) {entry : Key × ℤ} (hentry : entry ∈ entries) :
    valueAt (assignAll ledger entries) entry.1 = entry.2 := by
  induction entries generalizing ledger with
  | nil => cases hentry
  | cons head entries ih =>
    rw [List.map_cons, List.nodup_cons] at hnodup
    rcases List.mem_cons.mp hentry with rfl | htail
    · exact (valueAt_assignAll_of_notMem _ hnodup.1).trans (valueAt_assign_self ledger entry.1 entry.2)
    · exact ih _ hnodup.2 htail

theorem total_assignAll {entries : List (Key × ℤ)}
    (hnodup : (entries.map Prod.fst).Nodup) (hfresh : ∀ entry ∈ entries, valueAt ledger entry.1 = 0) :
    total (assignAll ledger entries) = total ledger + (entries.map Prod.snd).sum := by
  induction entries generalizing ledger with
  | nil => exact (add_zero _).symm
  | cons head entries ih =>
    rw [List.map_cons, List.nodup_cons] at hnodup
    have hrest : ∀ entry ∈ entries, valueAt (assign ledger head.1 head.2) entry.1 = 0 := by
      intro entry hentry
      have hne : entry.1 ≠ head.1 := fun heq => hnodup.1 (heq ▸ List.mem_map_of_mem hentry)
      rw [valueAt_assign_of_ne ledger head.2 hne]
      exact hfresh entry (List.mem_cons_of_mem _ hentry)
    have hhead := hfresh head (List.mem_cons_self ..)
    calc total (assignAll (assign ledger head.1 head.2) entries)
        = total (assign ledger head.1 head.2) + (entries.map Prod.snd).sum := ih _ hnodup.2 hrest
      _ = total ledger + ((head :: entries).map Prod.snd).sum := by
          rw [total_assign, hhead, List.map_cons, List.sum_cons, sub_zero, add_assoc]

end CosmosEvm.SparseLedger

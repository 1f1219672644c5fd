import CosmosEvm.Statedb.Object

namespace CosmosEvm.Statedb

structure AccessList where
  addresses : Finmap fun _ : Address => ℤ
  slots : List (Finset Hash)

namespace AccessList

def new : AccessList := ⟨∅, []⟩

variable (al : AccessList) (address : Address)

def containsAddress : Bool :=
  (al.addresses.lookup address).isSome

def contains (slot : Hash) : Bool × Bool :=
  match al.addresses.lookup address with
  | none => (false, false)
  | some idx =>
    if idx = -1 then (true, false) else (true, slot ∈ (al.slots[idx.toNat]?).getD ∅)

def addAddress : AccessList × Bool :=
  match al.addresses.lookup address with
  | some _ => (al, false)
  | none => ({ al with addresses := al.addresses.insert address (-1) }, true)

def addSlotMap (slot : Hash) : AccessList where
  addresses := al.addresses.insert address al.slots.length
  slots := al.slots ++ [{slot}]

def addSlot (slot : Hash) : AccessList × Bool × Bool :=
  match al.addresses.lookup address with
  | none => (al.addSlotMap address slot, true, true)
  | some idx =>
    if idx = -1 then (al.addSlotMap address slot, false, true)
    else
      let slotmap := (al.slots[idx.toNat]?).getD ∅
      if slot ∈ slotmap then (al, false, false)
      else ({ al with slots := al.slots.set idx.toNat (insert slot slotmap) }, false, true)

def addAddresses (addresses : List Address) : AccessList :=
  addresses.foldl (fun al address => (al.addAddress address).1) al

def addSlots (slots : List Hash) : AccessList :=
  slots.foldl (fun al slot => (al.addSlot address slot).1) al

def deleteSlot (slot : Hash) : Option AccessList :=
  match al.addresses.lookup address with
  | none => none
  | some idx =>
    if idx < 0 then none
    else
      match al.slots[idx.toNat]? with
      | none => none
      | some slotmap =>
        if slotmap.erase slot = ∅ then
          some ⟨al.addresses.insert address (-1), al.slots.take idx.toNat⟩
        else some { al with slots := al.slots.set idx.toNat (slotmap.erase slot) }

def deleteAddress : AccessList :=
  { al with addresses := al.addresses.erase address }

def WellFormed : Prop :=
  ∀ address idx, al.addresses.lookup address = some idx → idx = -1 ∨
    ∃ slotmap, 0 ≤ idx ∧ al.slots[idx.toNat]? = some slotmap ∧ slotmap.Nonempty

theorem wellFormed_new : new.WellFormed := by
  intro address idx hlookup
  simp [new] at hlookup

variable {al : AccessList} {address : Address} {slot : Hash}

theorem WellFormed.addAddress (hwf : al.WellFormed) (address : Address) :
    (al.addAddress address).1.WellFormed := by
  unfold AccessList.addAddress
  cases hlookup : al.addresses.lookup address with
  | some _ => exact hwf
  | none =>
    intro other idx hother
    by_cases heq : other = address
    · subst heq
      rw [Finmap.lookup_insert] at hother
      exact .inl (Option.some.inj hother).symm
    · rw [Finmap.lookup_insert_of_ne _ heq] at hother
      exact hwf other idx hother

theorem WellFormed.addSlotMap (hwf : al.WellFormed) (address : Address) (slot : Hash) :
    (al.addSlotMap address slot).WellFormed := by
  intro other idx hother
  unfold AccessList.addSlotMap at hother ⊢
  by_cases heq : other = address
  · subst heq
    rw [Finmap.lookup_insert] at hother
    cases hother
    exact .inr ⟨{slot}, by omega, by simp, by simp⟩
  · rw [Finmap.lookup_insert_of_ne _ heq] at hother
    refine (hwf other idx hother).imp_right fun ⟨slotmap, hnonneg, hslots, hne⟩ => ?_
    refine ⟨slotmap, hnonneg, ?_, hne⟩
    have hlt := (List.getElem?_eq_some_iff.mp hslots).1
    rw [List.getElem?_append_left hlt, hslots]

theorem WellFormed.addSlot (hwf : al.WellFormed) (address : Address) (slot : Hash) :
    (al.addSlot address slot).1.WellFormed := by
  unfold AccessList.addSlot
  cases hlookup : al.addresses.lookup address with
  | none => exact hwf.addSlotMap address slot
  | some idx =>
    simp only
    split
    · exact hwf.addSlotMap address slot
    · split
      · exact hwf
      · intro other idx' hother
        refine (hwf other idx' hother).imp_right fun ⟨slotmap, hnonneg, hslots, hne⟩ => ?_
        by_cases heq : idx.toNat = idx'.toNat
        · have hlt := (List.getElem?_eq_some_iff.mp hslots).1
          refine ⟨insert slot ((al.slots[idx.toNat]?).getD ∅), hnonneg, ?_,
            Finset.insert_nonempty _ _⟩
          simp only [heq, List.getElem?_set_self hlt]
        · exact ⟨slotmap, hnonneg, by rw [List.getElem?_set_ne heq, hslots], hne⟩

theorem WellFormed.addAddresses (hwf : al.WellFormed) (addresses : List Address) :
    (al.addAddresses addresses).WellFormed := by
  induction addresses generalizing al with
  | nil => exact hwf
  | cons address addresses ih => exact ih (hwf.addAddress address)

theorem WellFormed.addSlots (hwf : al.WellFormed) (address : Address) (slots : List Hash) :
    (al.addSlots address slots).WellFormed := by
  induction slots generalizing al with
  | nil => exact hwf
  | cons slot slots ih => exact ih (hwf.addSlot address slot)

theorem deleteAddress_addAddress (hadded : (al.addAddress address).2 = true) :
    (al.addAddress address).1.deleteAddress address = al := by
  unfold addAddress at hadded ⊢
  cases hlookup : al.addresses.lookup address with
  | some _ => simp [hlookup] at hadded
  | none =>
    have haddresses : (al.addresses.insert address (-1)).erase address = al.addresses := by
      apply Finmap.ext_lookup
      intro other
      by_cases heq : other = address
      · subst heq
        rw [Finmap.lookup_erase, hlookup]
      · rw [Finmap.lookup_erase_ne heq, Finmap.lookup_insert_of_ne _ heq]
    simp [deleteAddress, haddresses]

theorem deleteSlot_addSlotMap (al : AccessList) (address : Address) (slot : Hash) :
    (al.addSlotMap address slot).deleteSlot address slot =
      some ⟨al.addresses.insert address (-1), al.slots⟩ := by
  have hindex : ¬ ((al.slots.length : ℤ) < 0) := by omega
  unfold deleteSlot addSlotMap
  simp [Finmap.lookup_insert, hindex]

theorem insert_self_of_lookup {addresses : Finmap fun _ : Address => ℤ} {idx : ℤ}
    (hlookup : addresses.lookup address = some idx) : addresses.insert address idx = addresses := by
  apply Finmap.ext_lookup
  intro other
  by_cases heq : other = address
  · subst heq
    rw [Finmap.lookup_insert, hlookup]
  · rw [Finmap.lookup_insert_of_ne _ heq]

theorem deleteSlot_addSlot (hwf : al.WellFormed) (hadded : (al.addSlot address slot).2 = (false, true)) :
    (al.addSlot address slot).1.deleteSlot address slot = some al := by
  unfold addSlot at hadded ⊢
  cases hlookup : al.addresses.lookup address with
  | none => simp [hlookup] at hadded
  | some idx =>
    by_cases hnone : idx = -1
    · subst hnone
      simp only [if_true, deleteSlot_addSlotMap, insert_self_of_lookup hlookup]
    · obtain ⟨slotmap, hnonneg, hslots, hne⟩ := (hwf address idx hlookup).resolve_left hnone
      obtain ⟨hlt, hget⟩ := List.getElem?_eq_some_iff.mp hslots
      by_cases hmem : slot ∈ slotmap
      · simp [hlookup, hnone, hslots, hmem] at hadded
      · have herase : (insert slot slotmap).erase slot = slotmap := Finset.erase_insert hmem
        simp only [hnone, if_false, hslots, Option.getD_some, hmem]
        unfold deleteSlot
        simp only [hlookup, if_neg (show ¬ idx < 0 by omega), List.getElem?_set_self hlt, herase,
          if_neg hne.ne_empty, List.set_set]
        rw [← hget, List.set_getElem_self]

end AccessList

abbrev TransientStorage := Finmap fun _ : Address => Storage

namespace TransientStorage

variable (t : TransientStorage)

def get (addr : Address) (key : Hash) : Hash :=
  match t.lookup addr with
  | some storage => (storage.lookup key).getD zeroHash
  | none => zeroHash

def set (addr : Address) (key value : Hash) : TransientStorage :=
  if value = zeroHash then
    match t.lookup addr with
    | none => t
    | some storage =>
      if storage.erase key = ∅ then t.erase addr else t.insert addr (storage.erase key)
  else t.insert addr (((t.lookup addr).getD ∅).insert key value)

theorem get_eq (addr : Address) (key : Hash) :
    t.get addr key = (((t.lookup addr).getD ∅).lookup key).getD zeroHash := by
  unfold get
  cases t.lookup addr with
  | none => simp
  | some _ => rfl

theorem get_insert (addr : Address) (storage : Storage) :
    get (t.insert addr storage) = Function.update t.get addr fun key =>
      (storage.lookup key).getD zeroHash := by
  funext other key
  by_cases heq : other = addr
  · subst heq
    simp [get_eq, Finmap.lookup_insert]
  · simp [get_eq, Finmap.lookup_insert_of_ne _ heq, Function.update_of_ne heq]

theorem get_erase (addr : Address) :
    get (t.erase addr) = Function.update t.get addr fun _ => zeroHash := by
  funext other key
  by_cases heq : other = addr
  · subst heq
    simp [get_eq, Finmap.lookup_erase]
  · simp [get_eq, Finmap.lookup_erase_ne heq, Function.update_of_ne heq]

theorem getD_lookup_erase (storage : Storage) (key : Hash) :
    (fun other => ((storage.erase key).lookup other).getD zeroHash) =
      Function.update (fun other => (storage.lookup other).getD zeroHash) key zeroHash := by
  funext other
  by_cases heq : other = key
  · subst heq
    simp [Finmap.lookup_erase]
  · simp [Finmap.lookup_erase_ne heq, Function.update_of_ne heq]

theorem getD_lookup_insert (storage : Storage) (key value : Hash) :
    (fun other => ((storage.insert key value).lookup other).getD zeroHash) =
      Function.update (fun other => (storage.lookup other).getD zeroHash) key value := by
  funext other
  by_cases heq : other = key
  · subst heq
    simp [Finmap.lookup_insert]
  · simp [Finmap.lookup_insert_of_ne _ heq, Function.update_of_ne heq]

theorem get_set (addr : Address) (key value : Hash) :
    get (t.set addr key value) =
      Function.update t.get addr (Function.update (t.get addr) key value) := by
  have hget : t.get addr = fun other => (((t.lookup addr).getD ∅).lookup other).getD zeroHash :=
    funext (t.get_eq addr)
  unfold set
  split
  · rename_i hzero
    subst hzero
    cases hlookup : t.lookup addr with
    | none =>
      have hnone : t.get addr = fun _ => zeroHash := by simp [hget, hlookup]
      simp only [hnone]
      rw [Function.update_eq_self_iff.mpr rfl, ← hnone, Function.update_eq_self]
    | some storage =>
      have hstorage : t.get addr = fun other => (storage.lookup other).getD zeroHash := by
        rw [hget, hlookup, Option.getD_some]
      have hafter := getD_lookup_erase storage key
      rw [← hstorage] at hafter
      simp only
      split
      · rename_i hempty
        rw [get_erase, ← hafter, hempty]
        simp
      · rw [get_insert, hafter]
  · rw [get_insert, getD_lookup_insert, ← hget]

end TransientStorage

end CosmosEvm.Statedb

import CosmosEvm.Erc20.Genesis

namespace CosmosEvm.Erc20

open Result

inductive Op where
  | registerERC20 (contract : Address) (queryERC20 : Except Err ERC20Data)
  | registerERC20Extension (denom : Denom) (isContract : Address → Bool)
      (registerERC20CodeHash : Address → Except Err Unit)
  | toggleConversion (token : String)
  | deleteTokenPair (pair : StoredPair)
  | setAllowance (erc20 owner spender : Address) (value : ℤ)
  | initGenesis (data : GenesisState) (moduleAccount : Bool)
      (registerERC20CodeHash : Address → Except Err Unit)

namespace Libraries

variable (lib : Libraries)

/-- The store after an operation: what a failed one has written stays, and after a panic nothing does. A
genesis file is imported only if it is valid. -/
def step (store : Store) : Op → Store
  | .registerERC20 contract queryERC20 => (lib.registerERC20 store contract queryERC20).2
  | .registerERC20Extension denom isContract registerERC20CodeHash =>
    (lib.registerERC20Extension store denom isContract registerERC20CodeHash).2
  | .toggleConversion token => (lib.toggleConversion store token).toOption.elim store Prod.snd
  | .deleteTokenPair pair => lib.deleteTokenPair store pair
  | .setAllowance erc20 owner spender value =>
    (lib.setAllowance store erc20 owner spender value false).toOption.getD store
  | .initGenesis data moduleAccount registerERC20CodeHash =>
    match data.validate with
    | .error _ => store
    | .ok _ => (lib.initGenesis store data moduleAccount registerERC20CodeHash).toOption.getD store

/-- A deletion is of the stored pair, and the pair does not run as a precompile. -/
def Spares (store : Store) : Op → Prop
  | .deleteTokenPair pair => store.pairs.lookup (lib.getID pair) = some pair ∧
      store.isPrecompile pair.getERC20Contract = false
  | _ => True

inductive Reachable : Store → Prop where
  | empty : Reachable Store.empty
  | step {store : Store} (op : Op) : Reachable store → lib.Spares store op → Reachable (lib.step store op)

def Holds (store : Store) (id : Bytes) (pair : StoredPair) : Prop :=
  ∃ stored, store.pairs.lookup id = some stored ∧ stored.erc20Address = pair.erc20Address ∧
    stored.denom = pair.denom

structure Consistent (store : Store) : Prop where
  holds_iff_denom : ∀ id pair, isHexAddress pair.erc20Address = true →
    (Holds store id pair ↔ store.byDenom.lookup pair.denom = some id ∧ id = lib.getID pair)
  holds_iff_erc20 : ∀ id pair, isHexAddress pair.erc20Address = true →
    (Holds store id pair ↔
      store.byErc20.lookup pair.getERC20Contract = some id ∧ id = lib.getID pair)
  pair_hex : ∀ id pair, store.pairs.lookup id = some pair → isHexAddress pair.erc20Address = true
  denom_pair : ∀ denom id, store.byDenom.lookup denom = some id →
    ∃ pair, store.pairs.lookup id = some pair ∧ pair.denom = denom
  erc20_pair : ∀ erc20 id, store.byErc20.lookup erc20 = some id →
    ∃ pair, store.pairs.lookup id = some pair ∧ pair.getERC20Contract = erc20
  denom_unique : ∀ id pair id' pair', store.pairs.lookup id = some pair →
    store.pairs.lookup id' = some pair' → pair.denom = pair'.denom → id = id' ∧ pair = pair'
  erc20_unique : ∀ id pair id' pair', store.pairs.lookup id = some pair →
    store.pairs.lookup id' = some pair' → pair.getERC20Contract = pair'.getERC20Contract →
    id = id' ∧ pair = pair'
  allowance_pair : ∀ erc20 owner spender value,
    store.allowances.lookup (erc20, owner, spender) = some value →
    ∃ id pair, store.pairs.lookup id = some pair ∧ pair.getERC20Contract = erc20
  precompile_pair : ∀ address, store.isPrecompile address = true →
    ∃ id pair, store.pairs.lookup id = some pair ∧ pair.getERC20Contract = address

structure Linked (store : Store) : Prop where
  of_pair : ∀ {id pair}, store.pairs.lookup id = some pair →
    id = lib.getID pair ∧ isHexAddress pair.erc20Address = true ∧
      store.byDenom.lookup pair.denom = some id ∧
      store.byErc20.lookup pair.getERC20Contract = some id
  of_denom : ∀ {denom id}, store.byDenom.lookup denom = some id →
    ∃ pair, store.pairs.lookup id = some pair ∧ pair.denom = denom
  of_erc20 : ∀ {erc20 id}, store.byErc20.lookup erc20 = some id →
    ∃ pair, store.pairs.lookup id = some pair ∧ pair.getERC20Contract = erc20

end Libraries

structure Store.Anchored (store : Store) : Prop where
  of_allowance : ∀ {key value}, store.allowances.lookup key = some value →
    store.isERC20Registered key.1 = true
  of_precompile : ∀ {address}, store.isPrecompile address = true →
    store.isERC20Registered address = true
  validAllowances : store.ValidAllowances

theorem append_cons_inj {α : Type} {separator : α} : ∀ {left right left' right' : List α},
    separator ∉ left → separator ∉ left' → left ++ separator :: right = left' ++ separator :: right' →
    left = left' ∧ right = right'
  | [], right, [], right', _, _, heq => ⟨rfl, (List.cons.inj heq).2⟩
  | [], _, head' :: _, _, _, hleft', heq => by
    obtain ⟨rfl, -⟩ := List.cons.inj heq
    exact absurd List.mem_cons_self hleft'
  | head :: _, _, [], _, hleft, _, heq => by
    obtain ⟨rfl, -⟩ := List.cons.inj heq
    exact absurd List.mem_cons_self hleft
  | head :: left, right, head' :: left', right', hleft, hleft', heq => by
    obtain ⟨rfl, htail⟩ := List.cons.inj heq
    obtain ⟨rfl, rfl⟩ := append_cons_inj (fun hmem => hleft (List.mem_cons_of_mem _ hmem))
      (fun hmem => hleft' (List.mem_cons_of_mem _ hmem)) htail
    exact ⟨rfl, rfl⟩

namespace Libraries

variable {lib : Libraries} {store store' : Store} {pair pair' : StoredPair}

theorem getID_inj (hlib : lib.Lawful) (hpair : isHexAddress pair.erc20Address = true)
    (hpair' : isHexAddress pair'.erc20Address = true) (heq : lib.getID pair = lib.getID pair') :
    pair.erc20Address = pair'.erc20Address ∧ pair.denom = pair'.denom := by
  have htext := congrArg String.toList (hlib.tmhashSum_injective heq)
  simp only [String.toList_append, List.append_assoc] at htext
  obtain ⟨haddress, hdenom⟩ := append_cons_inj (bar_not_mem_of_isHexAddress hpair)
    (bar_not_mem_of_isHexAddress hpair') htext
  exact ⟨String.toList_injective haddress, String.toList_injective hdenom⟩

theorem setToken_eq_ok_iff : lib.setToken store pair = .ok store' ↔
    store.byDenom.lookup pair.denom = none ∧ store.byErc20.lookup pair.getERC20Contract = none ∧
      { lib.setTokenPair store pair with
        byDenom := store.byDenom.insert pair.denom (lib.getID pair)
        byErc20 := store.byErc20.insert pair.getERC20Contract (lib.getID pair) } = store' := by
  unfold setToken
  rw [ite_error_eq_ok_iff, ite_error_eq_ok_iff, Except.ok.injEq]
  simp only [Store.isDenomRegistered, Store.isERC20Registered, Bool.not_eq_true, Option.isSome_eq_false_iff,
    Option.isNone_iff_eq_none]

theorem Linked.congr (hlinked : lib.Linked store) (hpairs : store'.pairs = store.pairs)
    (hdenom : store'.byDenom = store.byDenom) (herc20 : store'.byErc20 = store.byErc20) :
    lib.Linked store' where
  of_pair := by
    rw [hpairs, hdenom, herc20]
    exact hlinked.of_pair
  of_denom := by
    rw [hpairs, hdenom]
    exact hlinked.of_denom
  of_erc20 := by
    rw [hpairs, herc20]
    exact hlinked.of_erc20

theorem Linked.setToken (hlinked : lib.Linked store) (hlib : lib.Lawful)
    (hhex : isHexAddress pair.erc20Address = true) (hok : lib.setToken store pair = .ok store') :
    lib.Linked store' := by
  obtain ⟨hdenom, herc20, rfl⟩ := setToken_eq_ok_iff.mp hok
  have hfresh : ∀ {id stored}, store.pairs.lookup id = some stored → id ≠ lib.getID pair := by
    intro id stored hstored heq
    obtain ⟨hid, hstoredHex, hmap, -⟩ := hlinked.of_pair hstored
    have hsame := (getID_inj hlib hstoredHex hhex (hid.symm.trans heq)).2
    rw [hsame, hdenom] at hmap
    cases hmap
  refine ⟨?_, ?_, ?_⟩
  · intro id stored hstored
    by_cases hid : id = lib.getID pair
    · subst hid
      rw [setTokenPair, Finmap.lookup_insert, Option.some.injEq] at hstored
      subst hstored
      exact ⟨rfl, hhex, Finmap.lookup_insert _, Finmap.lookup_insert _⟩
    · rw [setTokenPair, Finmap.lookup_insert_of_ne _ hid] at hstored
      obtain ⟨hkey, hstoredHex, hmapDenom, hmapErc20⟩ := hlinked.of_pair hstored
      refine ⟨hkey, hstoredHex, ?_, ?_⟩
      · rw [Finmap.lookup_insert_of_ne _ (fun heq => by rw [heq, hdenom] at hmapDenom; cases hmapDenom)]
        exact hmapDenom
      · rw [Finmap.lookup_insert_of_ne _ (fun heq => by rw [heq, herc20] at hmapErc20; cases hmapErc20)]
        exact hmapErc20
  · intro denom id hmap
    by_cases hsame : denom = pair.denom
    · subst hsame
      rw [Finmap.lookup_insert, Option.some.injEq] at hmap
      subst hmap
      exact ⟨pair, Finmap.lookup_insert _, rfl⟩
    · rw [Finmap.lookup_insert_of_ne _ hsame] at hmap
      obtain ⟨stored, hstored, heq⟩ := hlinked.of_denom hmap
      exact ⟨stored, (Finmap.lookup_insert_of_ne _ (hfresh hstored)).trans hstored, heq⟩
  · intro erc20 id hmap
    by_cases hsame : erc20 = pair.getERC20Contract
    · subst hsame
      rw [Finmap.lookup_insert, Option.some.injEq] at hmap
      subst hmap
      exact ⟨pair, Finmap.lookup_insert _, rfl⟩
    · rw [Finmap.lookup_insert_of_ne _ hsame] at hmap
      obtain ⟨stored, hstored, heq⟩ := hlinked.of_erc20 hmap
      exact ⟨stored, (Finmap.lookup_insert_of_ne _ (hfresh hstored)).trans hstored, heq⟩

theorem Linked.setTokenPair (hlinked : lib.Linked store) {id : Bytes}
    (hstored : store.pairs.lookup id = some pair) (haddress : pair'.erc20Address = pair.erc20Address)
    (hdenom : pair'.denom = pair.denom) : lib.Linked (lib.setTokenPair store pair') := by
  obtain ⟨hid, hhex, hmapDenom, hmapErc20⟩ := hlinked.of_pair hstored
  have hkey : lib.getID pair' = id := by rw [hid, getID, getID, haddress, hdenom]
  have hcontract : pair'.getERC20Contract = pair.getERC20Contract := by
    rw [StoredPair.getERC20Contract, haddress, StoredPair.getERC20Contract]
  have hlookup : ∀ key found, store.pairs.lookup key = some found → ∃ again,
      (lib.setTokenPair store pair').pairs.lookup key = some again ∧ again.denom = found.denom ∧
        again.getERC20Contract = found.getERC20Contract := by
    intro key found hfound
    by_cases heq : key = lib.getID pair'
    · have hsame : found = pair := by
        rw [heq, hkey, hstored] at hfound
        exact (Option.some.inj hfound).symm
      subst heq hsame
      exact ⟨pair', Finmap.lookup_insert _, hdenom, hcontract⟩
    · exact ⟨found, (Finmap.lookup_insert_of_ne _ heq).trans hfound, rfl, rfl⟩
  refine ⟨?_, ?_, ?_⟩
  · intro key found hfound
    by_cases heq : key = lib.getID pair'
    · subst heq
      rw [Libraries.setTokenPair, Finmap.lookup_insert, Option.some.injEq] at hfound
      subst hfound
      rw [hdenom, hcontract, haddress]
      exact ⟨rfl, hhex, hmapDenom.trans (congrArg some hkey.symm),
        hmapErc20.trans (congrArg some hkey.symm)⟩
    · rw [Libraries.setTokenPair, Finmap.lookup_insert_of_ne _ heq] at hfound
      exact hlinked.of_pair hfound
  · intro denom key hmap
    obtain ⟨found, hfound, hsame⟩ := hlinked.of_denom hmap
    obtain ⟨again, hagain, heq, -⟩ := hlookup key found hfound
    exact ⟨again, hagain, heq.trans hsame⟩
  · intro erc20 key hmap
    obtain ⟨found, hfound, hsame⟩ := hlinked.of_erc20 hmap
    obtain ⟨again, hagain, -, heq⟩ := hlookup key found hfound
    exact ⟨again, hagain, heq.trans hsame⟩

theorem Linked.deleteTokenPair (hlinked : lib.Linked store)
    (hstored : store.pairs.lookup (lib.getID pair) = some pair) :
    lib.Linked (lib.deleteTokenPair store pair) := by
  obtain ⟨-, -, hmapDenom, hmapErc20⟩ := hlinked.of_pair hstored
  refine ⟨?_, ?_, ?_⟩
  · intro id found hfound
    have hid : id ≠ lib.getID pair := by
      rintro rfl
      rw [Libraries.deleteTokenPair, Finmap.lookup_erase] at hfound
      cases hfound
    rw [Libraries.deleteTokenPair, Finmap.lookup_erase_ne hid] at hfound
    obtain ⟨hkey, hhex, hfoundDenom, hfoundErc20⟩ := hlinked.of_pair hfound
    refine ⟨hkey, hhex, ?_, ?_⟩
    · refine (Finmap.lookup_erase_ne fun heq => hid ?_).trans hfoundDenom
      rw [heq, hmapDenom] at hfoundDenom
      exact (Option.some.inj hfoundDenom).symm
    · refine (Finmap.lookup_erase_ne fun heq => hid ?_).trans hfoundErc20
      rw [heq, hmapErc20] at hfoundErc20
      exact (Option.some.inj hfoundErc20).symm
  · intro denom id hmap
    have hne : denom ≠ pair.denom := by
      rintro rfl
      rw [Libraries.deleteTokenPair, Finmap.lookup_erase] at hmap
      cases hmap
    rw [Libraries.deleteTokenPair, Finmap.lookup_erase_ne hne] at hmap
    obtain ⟨found, hfound, hsame⟩ := hlinked.of_denom hmap
    refine ⟨found, (Finmap.lookup_erase_ne ?_).trans hfound, hsame⟩
    rintro rfl
    rw [hstored, Option.some.injEq] at hfound
    exact hne (hsame.symm.trans (congrArg StoredPair.denom hfound.symm))
  · intro erc20 id hmap
    have hne : erc20 ≠ pair.getERC20Contract := by
      rintro rfl
      rw [Libraries.deleteTokenPair, Finmap.lookup_erase] at hmap
      cases hmap
    rw [Libraries.deleteTokenPair, Finmap.lookup_erase_ne hne] at hmap
    obtain ⟨found, hfound, hsame⟩ := hlinked.of_erc20 hmap
    refine ⟨found, (Finmap.lookup_erase_ne ?_).trans hfound, hsame⟩
    rintro rfl
    rw [hstored, Option.some.injEq] at hfound
    exact hne (hsame.symm.trans (congrArg StoredPair.getERC20Contract hfound.symm))

variable (lib store) in
structure Kept : Prop extends lib.Linked store, store.Anchored

theorem Kept.congr (hkept : lib.Kept store) (hpairs : store'.pairs = store.pairs)
    (hdenom : store'.byDenom = store.byDenom) (herc20 : store'.byErc20 = store.byErc20)
    (hallowances : store'.allowances = store.allowances)
    (hnative : store'.nativePrecompiles = store.nativePrecompiles)
    (hdynamic : store'.dynamicPrecompiles = store.dynamicPrecompiles) : lib.Kept store' where
  toLinked := hkept.toLinked.congr hpairs hdenom herc20
  of_allowance := by
    unfold Store.isERC20Registered
    rw [hallowances, herc20]
    exact hkept.of_allowance
  of_precompile := by
    unfold Store.isPrecompile Store.isERC20Registered
    rw [hnative, hdynamic, herc20]
    exact hkept.of_precompile
  validAllowances := by
    unfold Store.ValidAllowances
    rw [hallowances]
    exact hkept.validAllowances

theorem kept_empty : lib.Kept Store.empty where
  of_pair hlookup := nomatch hlookup
  of_denom hlookup := nomatch hlookup
  of_erc20 hlookup := nomatch hlookup
  of_allowance hlookup := nomatch hlookup
  of_precompile havailable := nomatch havailable
  validAllowances _ _ _ _ hlookup := nomatch hlookup

theorem isERC20Registered_setToken (hok : lib.setToken store pair = .ok store') (erc20 : Address) :
    store'.isERC20Registered erc20 = true ↔
      erc20 = pair.getERC20Contract ∨ store.isERC20Registered erc20 = true := by
  obtain ⟨-, -, rfl⟩ := setToken_eq_ok_iff.mp hok
  by_cases heq : erc20 = pair.getERC20Contract
  · subst heq
    simp [Store.isERC20Registered]
  · simp [Store.isERC20Registered, Finmap.lookup_insert_of_ne _ heq, heq]

theorem Kept.setToken (hkept : lib.Kept store) (hlib : lib.Lawful)
    (hhex : isHexAddress pair.erc20Address = true) (hok : lib.setToken store pair = .ok store') :
    lib.Kept store' := by
  have hregistered := isERC20Registered_setToken hok
  refine ⟨hkept.toLinked.setToken hlib hhex hok, ⟨?_, ?_, ?_⟩⟩
  · intro key value hlookup
    obtain ⟨-, -, rfl⟩ := setToken_eq_ok_iff.mp hok
    exact (hregistered key.1).mpr (.inr (hkept.of_allowance hlookup))
  · intro address havailable
    obtain ⟨-, -, rfl⟩ := setToken_eq_ok_iff.mp hok
    exact (hregistered address).mpr (.inr (hkept.of_precompile havailable))
  · obtain ⟨-, -, rfl⟩ := setToken_eq_ok_iff.mp hok
    exact hkept.validAllowances

theorem Kept.deleteTokenPair (hkept : lib.Kept store)
    (hstored : store.pairs.lookup (lib.getID pair) = some pair)
    (hspared : store.isPrecompile pair.getERC20Contract = false) :
    lib.Kept (lib.deleteTokenPair store pair) := by
  have hregistered : ∀ {erc20}, erc20 ≠ pair.getERC20Contract → store.isERC20Registered erc20 = true →
      (lib.deleteTokenPair store pair).isERC20Registered erc20 = true := by
    intro erc20 hne hbefore
    unfold Store.isERC20Registered at hbefore ⊢
    rw [Libraries.deleteTokenPair, Finmap.lookup_erase_ne hne]
    exact hbefore
  have hkeeps : ∀ {key value}, (lib.deleteTokenPair store pair).allowances.lookup key = some value →
      store.allowances.lookup key = some value ∧ key.1 ≠ pair.getERC20Contract := by
    intro key value hlookup
    have herased := lookup_foldl_erase
      (store.allowances.keys.filter fun key => key.1 = pair.getERC20Contract).val store.allowances key
    rw [show (lib.deleteTokenPair store pair).allowances.lookup key = _ from herased] at hlookup
    split_ifs at hlookup with hmem
    refine ⟨hlookup, fun heq => hmem ?_⟩
    exact Finset.mem_filter.mpr
      ⟨Finmap.mem_keys.mpr (Finmap.mem_of_lookup_eq_some hlookup), heq⟩
  refine ⟨hkept.toLinked.deleteTokenPair hstored, ⟨?_, ?_, ?_⟩⟩
  · intro key value hlookup
    obtain ⟨hbefore, hne⟩ := hkeeps hlookup
    exact hregistered hne (hkept.of_allowance hbefore)
  · intro address havailable
    have hbefore : store.isPrecompile address = true := havailable
    refine hregistered (fun heq => ?_) (hkept.of_precompile hbefore)
    rw [heq, hspared] at hbefore
    cases hbefore
  · intro erc20 owner spender value hlookup
    exact hkept.validAllowances _ _ _ _ (hkeeps hlookup).1

theorem Kept.setAllowance (hkept : lib.Kept store) {erc20 owner spender : Address} {value : ℤ}
    {allowDisabled : Bool}
    (hok : lib.setAllowance store erc20 owner spender value allowDisabled = .ok store') :
    lib.Kept store' := by
  have hvalid := hkept.validAllowances.setAllowance hok
  obtain ⟨pair, hpair, -, -, -, -, -, rfl⟩ := setAllowance_eq_ok_iff.mp hok
  refine ⟨hkept.toLinked.congr rfl rfl rfl, ⟨?_, hkept.of_precompile, hvalid⟩⟩
  intro key found hlookup
  rcases lookup_ite_erase_insert hlookup with ⟨rfl, -⟩ | ⟨-, hbefore⟩
  · obtain ⟨id, hid, -⟩ := Option.bind_eq_some_iff.mp hpair
    exact Option.isSome_iff_exists.mpr ⟨id, hid⟩
  · exact hkept.of_allowance hbefore

section

variable {address : Address} {codeHash : Except Err Unit} (hkept : lib.Kept store)
  (hregistered : store.isERC20Registered address = true)

include hkept hregistered

theorem Kept.enable {nativePrecompiles dynamicPrecompiles}
    (hnative : nativePrecompiles ⊆ insert address store.nativePrecompiles)
    (hdynamic : dynamicPrecompiles ⊆ insert address store.dynamicPrecompiles) :
    lib.Kept { store with nativePrecompiles, dynamicPrecompiles } := by
  refine ⟨hkept.toLinked.congr rfl rfl rfl, ⟨hkept.of_allowance, ?_, hkept.validAllowances⟩⟩
  intro other havailable
  simp only [Store.isPrecompile, Bool.or_eq_true, decide_eq_true_eq] at havailable
  have hbefore : other = address ∨ store.isPrecompile other = true := by
    simp only [Store.isPrecompile, Bool.or_eq_true, decide_eq_true_eq]
    rcases havailable with hmem | hmem
    · rcases Finset.mem_insert.mp (hnative hmem) with heq | hold
      · exact .inl heq
      · exact .inr (.inl hold)
    · rcases Finset.mem_insert.mp (hdynamic hmem) with heq | hold
      · exact .inl heq
      · exact .inr (.inr hold)
  rcases hbefore with rfl | hold
  · exact hregistered
  · exact hkept.of_precompile hold

theorem Kept.enableNativePrecompile (hok : store.enableNativePrecompile address codeHash = .ok store') :
    lib.Kept store' ∧ store'.byErc20 = store.byErc20 := by
  obtain ⟨_, -, hok⟩ := bind_eq_ok_iff.mp hok
  cases hok
  exact ⟨hkept.enable hregistered Finset.Subset.rfl (Finset.subset_insert _ _), rfl⟩

theorem Kept.enableDynamicPrecompile (hok : store.enableDynamicPrecompile address codeHash = .ok store') :
    lib.Kept store' ∧ store'.byErc20 = store.byErc20 := by
  obtain ⟨_, -, hok⟩ := bind_eq_ok_iff.mp hok
  cases hok
  exact ⟨hkept.enable hregistered (Finset.subset_insert _ _) Finset.Subset.rfl, rfl⟩

end

theorem isHexAddress_of_validatePairs {pairs : List StoredPair} {seenErc20 seenDenom seen : Finset String}
    (hok : validatePairs pairs seenErc20 seenDenom = .ok seen) :
    ∀ pair ∈ pairs, isHexAddress pair.erc20Address = true := by
  induction pairs generalizing seenErc20 seenDenom with
  | nil => exact fun pair hmem => absurd hmem List.not_mem_nil
  | cons pair pairs ih =>
    unfold validatePairs at hok
    rw [ite_error_eq_ok_iff, ite_error_eq_ok_iff, bind_eq_ok_iff] at hok
    obtain ⟨-, -, done, hvalid, hrest⟩ := hok
    rw [StoredPair.validate, ite_error_eq_ok_iff, ite_error_eq_ok_iff, Bool.not_eq_false,
      Bool.not_eq_false] at hvalid
    exact List.forall_mem_cons.mpr ⟨hvalid.2.1, ih hrest⟩

theorem exists_pair_of_validatePrecompiles {pairs : List StoredPair} {precompiles : List String}
    (hok : validatePrecompiles pairs precompiles = .ok ()) :
    ∀ precompile ∈ precompiles, ∃ pair ∈ pairs, pair.erc20Address = precompile := by
  induction precompiles with
  | nil => exact fun precompile hmem => absurd hmem List.not_mem_nil
  | cons precompile precompiles ih =>
    rw [validatePrecompiles, ite_error_eq_ok_iff, Bool.not_eq_false, hasActiveTokenPair,
      List.any_eq_true] at hok
    obtain ⟨⟨pair, hmem, hactive⟩, hrest⟩ := hok
    rw [Bool.and_eq_true, decide_eq_true_eq] at hactive
    exact List.forall_mem_cons.mpr ⟨⟨pair, hmem, hactive.1⟩, ih hrest⟩

theorem Kept.setTokens (hlib : lib.Lawful) {pairs : List StoredPair} {done : Bool}
    (hhex : ∀ pair ∈ pairs, isHexAddress pair.erc20Address = true) (hkept : lib.Kept store)
    (heq : lib.setTokens store pairs = (store', done)) :
    lib.Kept store' ∧
      (∀ erc20, store.isERC20Registered erc20 = true → store'.isERC20Registered erc20 = true) ∧
      (done = true → ∀ pair ∈ pairs, store'.isERC20Registered pair.getERC20Contract = true) := by
  induction pairs generalizing store with
  | nil =>
    cases heq
    exact ⟨hkept, fun _ hregistered => hregistered, fun _ pair hmem => absurd hmem List.not_mem_nil⟩
  | cons pair pairs ih =>
    obtain ⟨hpair, hpairs⟩ := List.forall_mem_cons.mp hhex
    unfold Libraries.setTokens at heq
    cases hset : lib.setToken store pair with
    | error err =>
      rw [hset] at heq
      cases heq
      exact ⟨hkept, fun _ hregistered => hregistered, fun hdone => nomatch hdone⟩
    | ok middle =>
      rw [hset] at heq
      obtain ⟨hkept', hmono, hall⟩ := ih hpairs (hkept.setToken hlib hpair hset) heq
      have hregistered := isERC20Registered_setToken hset
      refine ⟨hkept', fun erc20 hbefore => hmono _ ((hregistered _).mpr (.inr hbefore)), ?_⟩
      intro hdone
      exact List.forall_mem_cons.mpr ⟨hmono _ ((hregistered _).mpr (.inl rfl)), hall hdone⟩

theorem Kept.enablePrecompiles {enable : Store → Address → Except Err Store} {kind : String}
    (henable : ∀ {store address store'}, lib.Kept store → store.isERC20Registered address = true →
      enable store address = .ok store' → lib.Kept store' ∧ store'.byErc20 = store.byErc20)
    {precompiles : List String} (hkept : lib.Kept store)
    (hregistered : ∀ precompile ∈ precompiles,
      store.isERC20Registered (hexToAddress precompile) = true)
    (hok : Libraries.enablePrecompiles enable kind store precompiles = .ok store') :
    lib.Kept store' ∧ store'.byErc20 = store.byErc20 := by
  induction precompiles generalizing store with
  | nil =>
    cases hok
    exact ⟨hkept, rfl⟩
  | cons precompile precompiles ih =>
    obtain ⟨hfirst, hrest⟩ := List.forall_mem_cons.mp hregistered
    unfold Libraries.enablePrecompiles at hok
    cases hcall : enable store (hexToAddress precompile) with
    | error err =>
      rw [hcall] at hok
      cases hok
    | ok middle =>
      rw [hcall] at hok
      obtain ⟨hmiddle, hsame⟩ := henable hkept hfirst hcall
      have hrest' : ∀ precompile ∈ precompiles,
          middle.isERC20Registered (hexToAddress precompile) = true := by
        unfold Store.isERC20Registered at hrest ⊢
        rwa [hsame]
      obtain ⟨hkept', hsame'⟩ := ih hmiddle hrest' hok
      exact ⟨hkept', hsame'.trans hsame⟩

theorem Kept.setAllowances {allowances : List Allowance} (hkept : lib.Kept store)
    (hok : lib.setAllowances store allowances = .ok store') : lib.Kept store' := by
  induction allowances generalizing store with
  | nil =>
    cases hok
    exact hkept
  | cons allowance allowances ih =>
    unfold Libraries.setAllowances at hok
    cases hset : lib.setAllowance store (hexToAddress allowance.erc20Address)
      (hexToAddress allowance.owner) (hexToAddress allowance.spender) allowance.value true with
    | error err =>
      rw [hset] at hok
      cases hok
    | ok middle =>
      rw [hset] at hok
      exact ih (hkept.setAllowance hset) hok

/-- The pairs of a valid genesis have addresses and denominations of their own. -/
theorem Kept.initGenesis (hkept : lib.Kept store) (hlib : lib.Lawful) {data : GenesisState}
    (hvalid : data.validate = .ok ()) {moduleAccount : Bool} {codeHash : Address → Except Err Unit}
    (hok : lib.initGenesis store data moduleAccount codeHash = .ok store') : lib.Kept store' := by
  obtain ⟨seen, hpairs, hvalid⟩ := bind_eq_ok_iff.mp hvalid
  obtain ⟨_, hdynamic, hvalid⟩ := bind_eq_ok_iff.mp hvalid
  obtain ⟨_, hnative, -⟩ := bind_eq_ok_iff.mp hvalid
  rw [mapError_eq_ok_iff] at hdynamic hnative
  have hhex := isHexAddress_of_validatePairs hpairs
  unfold Libraries.initGenesis at hok
  rw [ite_error_eq_ok_iff] at hok
  replace hok := hok.2
  have hstart : lib.Kept { store with
      enableErc20 := data.enableErc20
      permissionlessRegistration := data.permissionlessRegistration } :=
    hkept.congr rfl rfl rfl rfl rfl rfl
  cases htokens : lib.setTokens { store with
      enableErc20 := data.enableErc20
      permissionlessRegistration := data.permissionlessRegistration } data.tokenPairs with
  | mk stored done =>
  rw [htokens] at hok
  obtain ⟨hstored, -, hall⟩ := hstart.setTokens hlib hhex htokens
  cases done with
  | false =>
    -- a pair that could not be stored ends the import without an error
    cases hok
    exact hstored
  | true =>
    have hregistered : ∀ {precompiles}, validatePrecompiles data.tokenPairs precompiles = .ok () →
        ∀ precompile ∈ precompiles, stored.isERC20Registered (hexToAddress precompile) = true := by
      intro precompiles hprecompiles precompile hmem
      obtain ⟨pair, hpair, rfl⟩ := exists_pair_of_validatePrecompiles hprecompiles precompile hmem
      exact hall rfl pair hpair
    obtain ⟨store₁, hnatives, hok⟩ := bind_eq_ok_iff.mp hok
    obtain ⟨store₂, hdynamics, hok⟩ := bind_eq_ok_iff.mp hok
    obtain ⟨hkept₁, hsame⟩ := hstored.enablePrecompiles
      (fun hkept hregistered hok => hkept.enableNativePrecompile hregistered hok)
      (hregistered hnative) hnatives
    have hregistered₁ : ∀ precompile ∈ data.dynamicPrecompiles,
        store₁.isERC20Registered (hexToAddress precompile) = true := by
      have hbefore := hregistered hdynamic
      unfold Store.isERC20Registered at hbefore ⊢
      rwa [hsame]
    obtain ⟨hkept₂, -⟩ := hkept₁.enablePrecompiles
      (fun hkept hregistered hok => hkept.enableDynamicPrecompile hregistered hok)
      hregistered₁ hdynamics
    exact hkept₂.setAllowances hok

theorem isHexAddress_newTokenPair (hlib : lib.Lawful) (address : Address) (denom : Denom) (owner : Owner) :
    isHexAddress (lib.newTokenPair address denom owner).erc20Address = true :=
  hlib.isHexAddress_addressString address

theorem Kept.registerERC20 (hkept : lib.Kept store) (hlib : lib.Lawful) (contract : Address)
    (queryERC20 : Except Err ERC20Data) :
    lib.Kept (lib.registerERC20 store contract queryERC20).2 := by
  unfold Libraries.registerERC20
  split_ifs with hregistered
  · exact hkept
  cases hmetadata : lib.createCoinMetadata store contract queryERC20 with
  | error err => exact hkept
  | ok result =>
  obtain ⟨metadata, middle⟩ := result
  have hmiddle : lib.Kept middle := by
    obtain ⟨erc20Data, -, hrest⟩ := bind_eq_ok_iff.mp hmetadata
    rw [ite_error_eq_ok_iff, ite_error_eq_ok_iff] at hrest
    obtain ⟨_, -, hrest⟩ := bind_eq_ok_iff.mp hrest.2.2
    cases hrest
    exact hkept.congr rfl rfl rfl rfl rfl rfl
  cases hset : lib.setToken middle (lib.newTokenPair contract metadata.name .external) with
  | error err =>
    simp only [hset]
    exact hmiddle
  | ok store' =>
    simp only [hset]
    exact hmiddle.setToken hlib (isHexAddress_newTokenPair hlib _ _ _) hset

theorem Kept.registerERC20Extension (hkept : lib.Kept store) (hlib : lib.Lawful) (denom : Denom)
    (isContract : Address → Bool) (codeHash : Address → Except Err Unit) :
    lib.Kept (lib.registerERC20Extension store denom isContract codeHash).2 := by
  unfold Libraries.registerERC20Extension
  cases hcreate : lib.createNewTokenPair store denom isContract with
  | error err => exact hkept
  | ok result =>
  obtain ⟨address, -, hcreate⟩ := bind_eq_ok_iff.mp hcreate
  dsimp only at hcreate
  rw [ite_error_eq_ok_iff] at hcreate
  obtain ⟨middle, hset, hresult⟩ := bind_eq_ok_iff.mp hcreate.2
  cases hresult
  have hmiddle := hkept.setToken hlib (isHexAddress_newTokenPair hlib _ _ _) hset
  dsimp only
  cases henable : middle.enableDynamicPrecompile (lib.newTokenPair address denom .module).getERC20Contract
    (codeHash (lib.newTokenPair address denom .module).getERC20Contract) with
  | error err => exact hmiddle
  | ok store' =>
    have hregistered := (isERC20Registered_setToken hset _).mpr (.inl rfl)
    exact (hmiddle.enableDynamicPrecompile hregistered henable).1

theorem Kept.toggleConversion (hkept : lib.Kept store) {token : String}
    (hok : lib.toggleConversion store token = .ok (pair, store')) : lib.Kept store' := by
  unfold Libraries.toggleConversion at hok
  cases hid : store.getTokenPairID token with
  | none =>
    rw [hid] at hok
    cases hok
  | some id =>
  cases hfound : store.getTokenPair (some id) with
  | none =>
    simp only [hid, hfound] at hok
    cases hok
  | some stored =>
    simp only [hid, hfound] at hok
    cases hok
    exact ⟨hkept.toLinked.setTokenPair hfound rfl rfl, hkept.of_allowance, hkept.of_precompile,
      hkept.validAllowances⟩

/-- Each operation keeps the two maps and the pairs in step. -/
theorem Kept.step (hkept : lib.Kept store) (hlib : lib.Lawful) (op : Op)
    (hspares : lib.Spares store op) : lib.Kept (lib.step store op) := by
  cases op with
  | registerERC20 contract queryERC20 => exact hkept.registerERC20 hlib contract queryERC20
  | registerERC20Extension denom isContract codeHash =>
    exact hkept.registerERC20Extension hlib denom isContract codeHash
  | toggleConversion token =>
    change lib.Kept ((lib.toggleConversion store token).toOption.elim store Prod.snd)
    cases hok : lib.toggleConversion store token with
    | error err => exact hkept
    | ok result => exact hkept.toggleConversion hok
  | deleteTokenPair pair => exact hkept.deleteTokenPair hspares.1 hspares.2
  | setAllowance erc20 owner spender value =>
    change lib.Kept ((lib.setAllowance store erc20 owner spender value false).toOption.getD store)
    cases hok : lib.setAllowance store erc20 owner spender value false with
    | error err => exact hkept
    | ok store' => exact hkept.setAllowance hok
  | initGenesis data moduleAccount codeHash =>
    simp only [Libraries.step]
    cases hvalid : data.validate with
    | error err => exact hkept
    | ok done =>
      cases hok : lib.initGenesis store data moduleAccount codeHash with
      | error err => exact hkept
      | ok store' => exact hkept.initGenesis hlib hvalid hok

theorem Reachable.kept (hlib : lib.Lawful) (hreachable : lib.Reachable store) : lib.Kept store := by
  induction hreachable with
  | empty => exact kept_empty
  | step op _ hspares ih => exact ih.step hlib op hspares

theorem Linked.exists_pair (hlinked : lib.Linked store) {erc20 : Address}
    (hregistered : store.isERC20Registered erc20 = true) :
    ∃ id pair, store.pairs.lookup id = some pair ∧ pair.getERC20Contract = erc20 := by
  obtain ⟨id, hid⟩ := Option.isSome_iff_exists.mp hregistered
  exact ⟨id, hlinked.of_erc20 hid⟩

theorem eq_of_key_eq {id id' : Bytes} (hpair : store.pairs.lookup id = some pair)
    (hpair' : store.pairs.lookup id' = some pair')
    (heq : id = id') : id = id' ∧ pair = pair' := by
  subst heq
  exact ⟨rfl, Option.some.inj (hpair.symm.trans hpair')⟩

theorem Kept.consistent (hkept : lib.Kept store) (hlib : lib.Lawful) : lib.Consistent store where
  holds_iff_denom id pair hhex := by
    constructor
    · rintro ⟨stored, hstored, haddress, hdenom⟩
      obtain ⟨hid, -, hmap, -⟩ := hkept.of_pair hstored
      rw [hdenom] at hmap
      refine ⟨hmap, hid.trans ?_⟩
      rw [getID, getID, haddress, hdenom]
    · rintro ⟨hmap, hid⟩
      obtain ⟨stored, hstored, -⟩ := hkept.of_denom hmap
      obtain ⟨hkey, hstoredHex, -, -⟩ := hkept.of_pair hstored
      exact ⟨stored, hstored, getID_inj hlib hstoredHex hhex (hkey.symm.trans hid)⟩
  holds_iff_erc20 id pair hhex := by
    constructor
    · rintro ⟨stored, hstored, haddress, hdenom⟩
      obtain ⟨hid, -, -, hmap⟩ := hkept.of_pair hstored
      rw [StoredPair.getERC20Contract, haddress] at hmap
      refine ⟨hmap, hid.trans ?_⟩
      rw [getID, getID, haddress, hdenom]
    · rintro ⟨hmap, hid⟩
      obtain ⟨stored, hstored, -⟩ := hkept.of_erc20 hmap
      obtain ⟨hkey, hstoredHex, -, -⟩ := hkept.of_pair hstored
      exact ⟨stored, hstored, getID_inj hlib hstoredHex hhex (hkey.symm.trans hid)⟩
  pair_hex id pair hstored := (hkept.of_pair hstored).2.1
  denom_pair denom id hmap := hkept.of_denom hmap
  erc20_pair erc20 id hmap := hkept.of_erc20 hmap
  denom_unique id pair id' pair' hpair hpair' heq := by
    have hid := (hkept.of_pair hpair).2.2.1
    rw [heq, (hkept.of_pair hpair').2.2.1] at hid
    exact eq_of_key_eq hpair hpair' (Option.some.inj hid).symm
  erc20_unique id pair id' pair' hpair hpair' heq := by
    have hid := (hkept.of_pair hpair).2.2.2
    rw [heq, (hkept.of_pair hpair').2.2.2] at hid
    exact eq_of_key_eq hpair hpair' (Option.some.inj hid).symm
  allowance_pair erc20 owner spender value hlookup :=
    hkept.toLinked.exists_pair (hkept.of_allowance hlookup)
  precompile_pair address havailable := hkept.toLinked.exists_pair (hkept.of_precompile havailable)

/-- **The registry is consistent** in every run that deletes no pair of a precompile. -/
theorem consistent_of_reachable (hlib : lib.Lawful) (hreachable : lib.Reachable store) :
    lib.Consistent store :=
  (hreachable.kept hlib).consistent hlib

end Libraries

def wideBytes (text : List Char) : Bytes := text.flatMap fun c => bigEndian 3 c.toNat

theorem wideBytes_injective : Function.Injective wideBytes := by
  intro left right heq
  induction left generalizing right with
  | nil =>
    cases right with
    | nil => rfl
    | cons c right => exact absurd (congrArg List.length heq.symm) (by simp [wideBytes])
  | cons c left ih =>
    cases right with
    | nil => exact absurd (congrArg List.length heq) (by simp [wideBytes])
    | cons c' right =>
      obtain ⟨hhead, htail⟩ := List.append_inj heq (by simp)
      have hbound : ∀ c : Char, c.toNat < 256 ^ 3 := by
        intro c
        have hvalid : c.toNat < 0xd800 ∨ 0xdfff < c.toNat ∧ c.toNat < 0x110000 := c.valid
        omega
      rw [Char.toNat_inj.mp (bigEndian_inj (hbound c) (hbound c') hhead), ih htail]

def plainLibraries : Libraries where
  addressString := lowerHex
  tmhashSum text := wideBytes text.toList
  trimSpace text := text
  sanitizeERC20Name name := name
  validateMetadata _ := .ok ()

theorem plainLibraries_lawful : plainLibraries.Lawful where
  isHexAddress_addressString := isHexAddress_lowerHex
  hexToAddress_addressString := hexToAddress_lowerHex
  tmhashSum_injective _ _ heq := String.toList_injective (wideBytes_injective heq)

def voucher : Denom := "ibc/df63978f803a2e27ca5cc9b7631654ccf0bbc788b3b7f0a10200508e37c70992"

def voucherAddress : Address :=
  bytesToAddress [0x63, 0x16, 0x54, 0xcc, 0xf0, 0xbb, 0xc7, 0x88, 0xb3, 0xb7, 0xf0, 0xa1, 0x02, 0x00,
    0x50, 0x8e, 0x37, 0xc7, 0x09, 0x92]

def voucherPair : StoredPair := plainLibraries.newTokenPair voucherAddress voucher .module

def registerVoucher : Op := .registerERC20Extension voucher (fun _ => false) fun _ => .ok ()

theorem step_registerVoucher : plainLibraries.step Store.empty registerVoucher =
    { Store.empty with
      pairs := Finmap.insert (plainLibraries.getID voucherPair) voucherPair ∅
      byErc20 := Finmap.insert voucherPair.getERC20Contract (plainLibraries.getID voucherPair) ∅
      byDenom := Finmap.insert voucher (plainLibraries.getID voucherPair) ∅
      dynamicPrecompiles := {voucherPair.getERC20Contract} } := by
  have haddress : plainLibraries.getIBCDenomAddress voucher = .ok voucherAddress := by
    decide +kernel
  unfold registerVoucher Libraries.step
  dsimp only
  unfold Libraries.registerERC20Extension Libraries.createNewTokenPair
  rw [haddress]
  rfl

def contractPair : StoredPair :=
  plainLibraries.newTokenPair voucherAddress ("erc20:" ++ lowerHex voucherAddress) .external

theorem consistent_after_deletion :
    let registered := plainLibraries.step Store.empty
      (.registerERC20 voucherAddress (.ok ⟨"Token", "TKN", 6⟩))
    let deleted := plainLibraries.step registered (.deleteTokenPair contractPair)
    registered.pairs.lookup (plainLibraries.getID contractPair) = some contractPair ∧
      plainLibraries.Reachable deleted ∧ plainLibraries.Consistent deleted := by
  have hempty : plainLibraries.Reachable Store.empty := .empty
  have hregistered := hempty.step
    (.registerERC20 voucherAddress (.ok ⟨"Token", "TKN", 6⟩)) trivial
  have hlookup : (plainLibraries.step Store.empty (.registerERC20 voucherAddress
      (.ok ⟨"Token", "TKN", 6⟩))).pairs.lookup (plainLibraries.getID contractPair) = some contractPair :=
    Finmap.lookup_insert _
  have hdeleted := hregistered.step (.deleteTokenPair contractPair) ⟨hlookup, rfl⟩
  exact ⟨hlookup, hdeleted, Libraries.consistent_of_reachable plainLibraries_lawful hdeleted⟩

/-- After the pair of the voucher is deleted, its contract still runs as a precompile, without a pair. A
genesis file with this precompile and no pair is refused. -/
theorem precompile_without_pair :
    let registered := plainLibraries.step Store.empty registerVoucher
    let deleted := plainLibraries.step registered (.deleteTokenPair voucherPair)
    registered.pairs.lookup (plainLibraries.getID voucherPair) = some voucherPair ∧
      deleted.isPrecompile voucherPair.getERC20Contract = true ∧
      (∀ id, deleted.pairs.lookup id = none) ∧ ¬ plainLibraries.Consistent deleted ∧
      validatePrecompiles [] [voucherPair.erc20Address] ≠ .ok () := by
  rw [step_registerVoucher]
  dsimp only
  have hpairs : ∀ id, (Finmap.erase (plainLibraries.getID voucherPair) (Finmap.insert
      (plainLibraries.getID voucherPair) voucherPair (∅ : Finmap fun _ : Bytes => StoredPair))).lookup id =
        none := by
    intro id
    by_cases heq : id = plainLibraries.getID voucherPair
    · rw [heq]
      exact Finmap.lookup_erase _ _
    · rw [Finmap.lookup_erase_ne heq, Finmap.lookup_insert_of_ne _ heq, Finmap.lookup_empty]
  have havailable : (plainLibraries.step
      { Store.empty with
        pairs := Finmap.insert (plainLibraries.getID voucherPair) voucherPair ∅
        byErc20 := Finmap.insert voucherPair.getERC20Contract (plainLibraries.getID voucherPair) ∅
        byDenom := Finmap.insert voucher (plainLibraries.getID voucherPair) ∅
        dynamicPrecompiles := {voucherPair.getERC20Contract} }
      (.deleteTokenPair voucherPair)).isPrecompile voucherPair.getERC20Contract = true := by
    simp [Libraries.step, Libraries.deleteTokenPair, Store.deleteAllowances, Store.isPrecompile]
  refine ⟨Finmap.lookup_insert _, havailable, hpairs, ?_, by decide +kernel⟩
  intro hconsistent
  obtain ⟨id, pair, hstored, -⟩ := hconsistent.precompile_pair _ havailable
  cases (hpairs id).symm.trans hstored

end CosmosEvm.Erc20

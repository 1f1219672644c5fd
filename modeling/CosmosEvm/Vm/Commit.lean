import CosmosEvm.Lib.LocalRun
import CosmosEvm.Statedb.Commit
import CosmosEvm.Vm.Accounts

namespace CosmosEvm.Vm.Keeper

open Result BankKeeper PreciseBank.Keeper Statedb

variable {S Acc : Type} {k : Keeper S Acc} {ctx ctx' ctx'' : Ctx S}
  {addressString : Address → String}

def codeAfter (code : Finmap fun _ : Hash => Bytes) (obj : StateObject) : Finmap fun _ : Hash => Bytes :=
  match obj.code, obj.dirtyCode with
  | some bytes, true =>
    if bytes.length = 0 then code.erase obj.account.codeHash
    else code.insert obj.account.codeHash bytes
  | _, _ => code

theorem commitCode_eq (obj : StateObject) :
    commitCode (k.env addressString) ctx obj =
      withEvm ctx { ctx.store.evm with code := codeAfter ctx.store.evm.code obj } := by
  unfold commitCode codeAfter
  cases obj.code with
  | none => rfl
  | some bytes =>
    cases obj.dirtyCode with
    | false => rfl
    | true =>
      simp only
      split <;> rfl

theorem foldl_setState (ctx : Ctx S) (addr : Address) (value : Hash → Hash)
    (keys : List Hash) :
    ∃ storage, keys.foldl (fun ctx key => setState ctx addr key (value key).bytes) ctx =
        withEvm ctx { ctx.store.evm with storage } ∧
      ∀ other key, storage.lookup (other, key) =
        if other = addr ∧ key ∈ keys then some (value key).bytes
        else ctx.store.evm.storage.lookup (other, key) := by
  refine foldl_storage (fun ctx first => ⟨_, rfl, fun slot => ?_⟩) ctx keys
  split_ifs with hslot
  · rw [hslot, Finmap.lookup_insert]
  · exact Finmap.lookup_insert_of_ne _ hslot

theorem commitStorage_spec (k : Keeper S Acc) (addressString : Address → String)
    (ctx : Ctx S) (addr : Address) (obj : StateObject) :
    ∃ storage, commitStorage (k.env addressString) ctx addr obj =
        withEvm ctx { ctx.store.evm with storage } ∧
      ∀ other key, storage.lookup (other, key) =
        if other = addr ∧ key ∈ obj.dirtyStorage
        then some ((obj.dirtyStorage.lookup key).getD zeroHash).bytes
        else ctx.store.evm.storage.lookup (other, key) := by
  obtain ⟨storage, hfold, hlookup⟩ := foldl_setState ctx addr
    (fun key => (obj.dirtyStorage.lookup key).getD zeroHash) (FixedBytes.sorted obj.dirtyStorage.keys)
  refine ⟨storage, ?_, fun other key => ?_⟩
  · rw [← hfold]
    unfold commitStorage
    simp only [hash_bytes_length_ne_zero, if_false]
    rfl
  · rw [hlookup]
    simp only [Finset.mem_sort, Finmap.mem_keys]

structure ObjectCommitted (k : Keeper S Acc) (ctx ctx' : Ctx S) (addr : Address)
    (obj : StateObject) : Prop where
  backed : Backed k.bank ctx'
  untouched : Untouched k addr ctx ctx'
  spendable : k.spendableCoin ctx' addr = obj.account.balance.toNat
  nonce : (k.ak.getAccount ctx'.store.sdk addr.bytes).map k.ak.getSequence = some obj.account.nonce
  codeHash : ctx'.store.evm.codeHash.lookup addr = k.codeHashEntry obj.account.codeHash
  code_eq : ctx'.store.evm.code = codeAfter ctx.store.evm.code obj
  storage : ∀ key, ctx'.store.evm.storage.lookup (addr, key) =
    if key ∈ obj.dirtyStorage then some ((obj.dirtyStorage.lookup key).getD zeroHash).bytes
    else ctx.store.evm.storage.lookup (addr, key)
  circulating : k.bank.circulatingValue ctx' =
    k.bank.circulatingValue ctx + k.balanceDelta ctx addr obj.account.balance

theorem commitObject_eq_ok_iff {addr : Address} {obj : StateObject} (hobj : obj.selfDestructed = false) :
    commitObject (k.env addressString) ctx addr obj = .ok ctx' ↔
      ∃ ctx₁, k.setAccount (commitCode (k.env addressString) ctx obj) addr obj.account = .ok ctx₁ ∧
        commitStorage (k.env addressString) ctx₁ addr obj = ctx' := by
  unfold commitObject
  simp only [hobj, Bool.false_eq_true, if_false]
  rw [bind_eq_ok_iff]
  simp only [mapError_eq_ok_iff, pure_eq_ok_iff]
  rfl

theorem commitObject_spec (hwired : k.Wired) (hbacked : Backed k.bank ctx) {addr : Address}
    {obj : StateObject} (hobj : obj.selfDestructed = false)
    (hok : commitObject (k.env addressString) ctx addr obj = .ok ctx') :
    ObjectCommitted k ctx ctx' addr obj := by
  obtain ⟨ctx₁, hset, rfl⟩ := (commitObject_eq_ok_iff hobj).mp hok
  obtain ⟨storage, hstorage, hlookup⟩ := commitStorage_spec k addressString ctx₁ addr obj
  rw [commitCode_eq] at hset
  have hcode : Untouched k addr ctx
      (withEvm ctx { ctx.store.evm with code := codeAfter ctx.store.evm.code obj }) :=
    untouched_withEvm (fun _ _ => rfl) fun _ _ _ => rfl
  have hbacked₀ := (sameCoins_withEvm
    { ctx.store.evm with code := codeAfter ctx.store.evm.code obj }).backed hbacked
  have haccount := setAccount_spec hwired hbacked₀ hset
  have hslots : Untouched k addr ctx₁ (withEvm ctx₁ { ctx₁.store.evm with storage }) := by
    refine untouched_withEvm (fun _ _ => rfl) fun other key hne => ?_
    rw [hlookup, if_neg fun hmem => hne hmem.1]
  rw [hstorage]
  refine ⟨(sameCoins_withEvm _).backed haccount.backed, (hcode.trans haccount.untouched).trans hslots,
    haccount.spendable, haccount.nonce, haccount.codeHash, haccount.code_eq, fun key => ?_,
    haccount.circulating⟩
  change storage.lookup (addr, key) = _
  rw [hlookup, haccount.storage_eq]
  simp only [true_and]
  rfl

theorem ObjectCommitted.getState_eq {addr : Address} {obj : StateObject}
    (hcommitted : ObjectCommitted k ctx ctx' addr obj) (key : Hash) :
    getState ctx'.store addr key = (obj.dirtyStorage.lookup key).getD (getState ctx.store addr key) := by
  have hstorage := hcommitted.storage key
  cases hlookup : obj.dirtyStorage.lookup key with
  | some value =>
    rw [if_pos (Finmap.mem_of_lookup_eq_some hlookup), hlookup] at hstorage
    exact getState_of_lookup_bytes hstorage
  | none =>
    rw [if_neg (Finmap.lookup_eq_none.mp hlookup)] at hstorage
    unfold getState
    rw [hstorage]
    rfl

theorem SameAt.getState_eq {addr : Address} (hsame : SameAt k ctx ctx' addr.bytes) (key : Hash) :
    getState ctx'.store addr key = getState ctx.store addr key := by
  unfold getState
  rw [hsame.storage rfl]

structure Deletable (k : Keeper S Acc) (ctx : Ctx S) (addr : Address) : Prop where
  ne_account : addr.bytes ≠ k.account.address
  ne_reserve : addr.bytes ≠ k.bank.reserve.address
  contract : ∀ {acct}, k.ak.getAccount ctx.store.sdk addr.bytes = some acct →
    isContract ctx.store addr = true

/-- The address has an object to commit, and if it is destructed the account can be deleted. -/
def Ready (k : Keeper S Acc) (s : StateDB (MultiStore S)) (ctx : Ctx S)
    (addr : Address) : Prop :=
  ∃ obj, s.stateObjects.lookup addr = some obj ∧ (obj.selfDestructed = true → Deletable k ctx addr)

theorem SameAt.getAccount_eq {addr : Address} (hsame : SameAt k ctx ctx' addr.bytes)
    (haccount : addr.bytes ≠ k.account.address) (hreserve : addr.bytes ≠ k.bank.reserve.address) :
    k.ak.getAccount ctx'.store.sdk addr.bytes = k.ak.getAccount ctx.store.sdk addr.bytes :=
  hsame.account.resolve_right fun hnew => hnew.1.elim haccount hreserve

theorem Deletable.of_same {addr : Address} (hsame : SameAt k ctx ctx' addr.bytes)
    (hdeletable : Deletable k ctx addr) : Deletable k ctx' addr where
  ne_account := hdeletable.ne_account
  ne_reserve := hdeletable.ne_reserve
  contract hacct := by
    rw [hsame.getAccount_eq hdeletable.ne_account hdeletable.ne_reserve] at hacct
    unfold isContract
    rw [hsame.codeHash rfl]
    exact hdeletable.contract hacct

theorem deleteAccount_local (hwired : k.Wired) (hbacked : Backed k.bank ctx) {addr : Address}
    (hok : k.deleteAccount ctx addr = .ok ctx') :
    Backed k.bank ctx' ∧ Untouched k addr ctx ctx' ∧ ∀ key, ctx'.store.evm.storage.lookup (addr, key) =
      if k.ak.getAccount ctx.store.sdk addr.bytes = none then ctx.store.evm.storage.lookup (addr, key)
      else none := by
  cases hacct : k.ak.getAccount ctx.store.sdk addr.bytes with
  | none =>
    simp only [deleteAccount, hacct, Except.ok.injEq] at hok
    subst hok
    exact ⟨hbacked, fun a _ => .refl k ctx a, fun key => (if_pos rfl).symm⟩
  | some acct =>
    have hcontract : isContract ctx.store addr = true := by
      by_contra hnot
      simp [deleteAccount, hacct, hnot] at hok
    have hdeleted := deleteAccount_spec hwired hbacked hacct hcontract hok
    refine ⟨hdeleted.backed, hdeleted.untouched, fun key => ?_⟩
    rw [hdeleted.storage, if_neg (Option.some_ne_none acct)]

theorem commitAddress_local (hwired : k.Wired) (s : StateDB (MultiStore S))
    (hbacked : Backed k.bank ctx) {addr : Address}
    (hok : s.commitAddress (k.env addressString) ctx addr = .ok ctx') :
    Backed k.bank ctx' ∧ Untouched k addr ctx ctx' := by
  unfold StateDB.commitAddress at hok
  cases hlookup : s.stateObjects.lookup addr with
  | none => simp [hlookup] at hok
  | some obj =>
    simp only [hlookup] at hok
    cases hdestructed : obj.selfDestructed with
    | false =>
      have hcommitted := commitObject_spec hwired hbacked hdestructed hok
      exact ⟨hcommitted.backed, hcommitted.untouched⟩
    | true =>
      simp only [commitObject, hdestructed, if_true, mapError_eq_ok_iff] at hok
      obtain ⟨hbacked', huntouched, -⟩ := deleteAccount_local hwired hbacked hok
      exact ⟨hbacked', huntouched⟩

theorem local_commitAddress (hwired : k.Wired) (s : StateDB (MultiStore S)) :
    Local (s.commitAddress (k.env addressString)) FixedBytes.bytes (Backed k.bank) (k.Ready s)
      (SameAt k) where
  refl := SameAt.refl k
  trans := SameAt.trans
  ready_of_same hsame := by
    rintro ⟨obj, hlookup, hdeletable⟩
    exact ⟨obj, hlookup, fun hdestructed => (hdeletable hdestructed).of_same hsame⟩
  invariant_step hbacked _ hok := (commitAddress_local hwired s hbacked hok).1
  same_step hbacked _ hok := (commitAddress_local hwired s hbacked hok).2

theorem nodup_sortedDirties (journal : Journal) :
    (journal.sortedDirties.map FixedBytes.bytes).Nodup :=
  (Finset.sort_nodup _ _).map FixedBytes.bytes_injective

theorem mem_sortedDirties {journal : Journal} {addr : Address} :
    addr ∈ journal.sortedDirties ↔ addr ∈ journal.dirties := by
  unfold Journal.sortedDirties
  rw [Finset.mem_sort, Finmap.mem_keys]

end CosmosEvm.Vm.Keeper

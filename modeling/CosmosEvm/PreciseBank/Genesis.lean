import CosmosEvm.PreciseBank.Backing
import CosmosEvm.Sdk.Hex

namespace CosmosEvm.PreciseBank

/-- `types.FractionalBalance`, whose amount may be nil. -/
structure FractionalBalance where
  address : String
  amount : Option ℤ

structure GenesisState where
  balances : List FractionalBalance
  remainder : Option ℤ

def defaultGenesisState : GenesisState := ⟨[], some 0⟩

/-- `strings.ToLower`, on the ASCII texts that are left once an address has been decoded. -/
def toLower (text : String) : String := String.ofList (text.toList.map Char.toLower)

def sumAmount (balances : List FractionalBalance) : ℤ := (balances.map fun fb => fb.amount.getD 0).sum

def GenesisState.totalAmountWithRemainder (gs : GenesisState) : ℤ :=
  sumAmount gs.balances + gs.remainder.getD 0

namespace Keeper

open SparseLedger Digit Result BankKeeper

variable {S : Type} (k : Keeper S) (ctx : Ctx S)

def validateBalance (fb : FractionalBalance) : Except String Unit :=
  match k.codec.accAddressFromBech32 fb.address with
  | none => .error "decoding bech32 failed"
  | some _ =>
    match fb.amount with
    | none => .error "nil amount"
    | some amount => k.validateFractionalAmount amount

/-- `FractionalBalances.Validate`, with the addresses seen so far. -/
def validateBalances (seenAddresses : List String) : List FractionalBalance → Except String Unit
  | [] => .ok ()
  | fb :: fbs =>
    match k.validateBalance fb with
    | .error text => .error s!"invalid fractional balance for {fb.address}: {text}"
    | .ok () =>
      let lowerAddr := toLower fb.address
      if lowerAddr ∈ seenAddresses then .error s!"duplicate address {lowerAddr}"
      else validateBalances (lowerAddr :: seenAddresses) fbs

def validate (gs : GenesisState) : Except String Unit :=
  match k.validateBalances [] gs.balances with
  | .error text => .error s!"invalid balances: {text}"
  | .ok () =>
    match gs.remainder with
    | none => .error "nil remainder amount"
    | some remainder =>
      if remainder < 0 then .error s!"negative remainder amount {remainder}"
      else if k.conversionFactor ≤ remainder then
        .error s!"remainder {remainder} exceeds max of {k.conversionFactor - 1}"
      else
        let sum := sumAmount gs.balances
        if (sum + remainder) % k.conversionFactor ≠ 0 then
          .error (s!"sum of fractional balances {sum} + remainder {remainder} " ++
            s!"is not a multiple of {k.conversionFactor}")
        else .ok ()

def setBalances (ctx : Ctx S) : List FractionalBalance → Except Err (Ctx S)
  | [] => .ok ctx
  | fb :: fbs =>
    match k.codec.accAddressFromBech32 fb.address with
    | none => .error (.panicked "decoding bech32 failed")
    | some addr => do
      let ctx ← k.setFractionalBalance ctx addr (fb.amount.getD 0)
      setBalances ctx fbs

def initGenesis (gs : GenesisState) : Except Err (Ctx S) :=
  match k.validate gs with
  | .error text => .error (.panicked s!"failed to validate {moduleName} genesis state: {text}")
  | .ok () =>
    match k.modules.getModuleAccount moduleName with
    | none => .error (.panicked s!"{moduleName} module account has not been set")
    | some _ =>
      let totalAmt := gs.totalAmountWithRemainder
      let moduleAddr := k.modules.getModuleAddress moduleName
      let moduleBal := k.bk.getBalance ctx.store.sdk moduleAddr k.integerCoinDenom
      if totalAmt ≠ moduleBal * k.conversionFactor ∧ ¬ (gs.balances = [] ∧ gs.remainder.getD 0 = 0) then
        .error (.panicked ("module account balance does not match sum of fractional balances and " ++
          s!"remainder, balance is {moduleBal}{k.integerCoinDenom} but expected " ++
          s!"{totalAmt}{k.extendedCoinDenom} ({totalAmt / k.conversionFactor}{k.integerCoinDenom})"))
      else do
        let ctx ← k.setBalances ctx gs.balances
        k.setRemainderAmount ctx (gs.remainder.getD 0)

/-- `ExportGenesis`, which iterates the store in the order of its keys. -/
def exportGenesis : GenesisState where
  balances := (ctx.store.fractionalBalances.keys.sort (· ≤ ·)).map fun addr =>
    ⟨k.codec.accAddressString addr, some (getFractionalBalance ctx addr)⟩
  remainder := some (getRemainderAmount ctx)

variable {k ctx} {ctx' : Ctx S}

structure ValidBalances (k : Keeper S) (balances : List FractionalBalance) : Prop where
  each : ∀ fb ∈ balances, ∃ addr amount, k.codec.accAddressFromBech32 fb.address = some addr ∧
    fb.amount = some amount ∧ 0 < amount ∧ amount < k.conversionFactor
  distinct : (balances.map fun fb => toLower fb.address).Nodup

theorem validateBalance_eq_ok_iff {fb : FractionalBalance} :
    k.validateBalance fb = .ok () ↔ ∃ addr amount, k.codec.accAddressFromBech32 fb.address = some addr ∧
      fb.amount = some amount ∧ 0 < amount ∧ amount < k.conversionFactor := by
  unfold validateBalance
  cases haddr : k.codec.accAddressFromBech32 fb.address with
  | none => simp
  | some addr =>
    cases hamount : fb.amount with
    | none => simp
    | some amount => simp [validateFractionalAmount_eq_ok_iff]

theorem validateBalances_eq_ok_iff {balances : List FractionalBalance} {seen : List String} :
    k.validateBalances seen balances = .ok () ↔ ValidBalances k balances ∧
      ∀ fb ∈ balances, toLower fb.address ∉ seen := by
  induction balances generalizing seen with
  | nil => exact iff_of_true rfl ⟨⟨by simp, List.nodup_nil⟩, by simp⟩
  | cons fb balances ih =>
    unfold validateBalances
    cases hbalance : k.validateBalance fb with
    | error text =>
      refine iff_of_false nofun fun ⟨hvalid, _⟩ => ?_
      have hok := validateBalance_eq_ok_iff.mpr (hvalid.each fb (List.mem_cons_self ..))
      rw [hbalance] at hok
      cases hok
    | ok checked =>
      have heach := validateBalance_eq_ok_iff.mp hbalance
      by_cases hseen : toLower fb.address ∈ seen
      · simp only [hseen, if_true]
        exact iff_of_false nofun fun ⟨_, hnew⟩ => hnew fb (List.mem_cons_self ..) hseen
      simp only [hseen, if_false, ih]
      constructor
      · rintro ⟨hvalid, hnew⟩
        refine ⟨⟨List.forall_mem_cons.mpr ⟨heach, hvalid.each⟩, ?_⟩,
          List.forall_mem_cons.mpr ⟨hseen, fun other hother hmem => ?_⟩⟩
        · refine List.nodup_cons.mpr ⟨fun hmem => ?_, hvalid.distinct⟩
          obtain ⟨other, hother, heq⟩ := List.mem_map.mp hmem
          exact hnew other hother (heq ▸ List.mem_cons_self ..)
        · exact hnew other hother (List.mem_cons_of_mem _ hmem)
      · rintro ⟨hvalid, hnew⟩
        obtain ⟨hhead, hdistinct⟩ := List.nodup_cons.mp hvalid.distinct
        refine ⟨⟨(List.forall_mem_cons.mp hvalid.each).2, hdistinct⟩, fun other hother hmem => ?_⟩
        rcases List.mem_cons.mp hmem with heq | hmem
        · exact hhead (List.mem_map.mpr ⟨other, hother, heq⟩)
        · exact hnew other (List.mem_cons_of_mem _ hother) hmem

theorem validate_eq_ok_iff {gs : GenesisState} :
    k.validate gs = .ok () ↔ ValidBalances k gs.balances ∧ ∃ remainder, gs.remainder = some remainder ∧
      IsDigit k.conversionFactor remainder ∧ k.conversionFactor ∣ gs.totalAmountWithRemainder := by
  have hbalances : k.validateBalances [] gs.balances = .ok () ↔ ValidBalances k gs.balances := by
    rw [validateBalances_eq_ok_iff]
    exact and_iff_left fun _ _ => List.not_mem_nil
  unfold validate GenesisState.totalAmountWithRemainder
  cases hcheck : k.validateBalances [] gs.balances with
  | error text =>
    refine iff_of_false nofun fun ⟨hvalid, _⟩ => ?_
    rw [hbalances.mpr hvalid] at hcheck
    cases hcheck
  | ok checked =>
    have hvalid := hbalances.mp hcheck
    cases hremainder : gs.remainder with
    | none => simp
    | some remainder =>
      simp only [Option.some.injEq, exists_eq_left', hvalid, true_and, Option.getD_some, IsDigit,
        Int.dvd_iff_emod_eq_zero]
      split_ifs with hneg hlarge hoff
      · exact iff_of_false nofun fun h => absurd h.1.1 (not_le.mpr hneg)
      · exact iff_of_false nofun fun h => absurd h.1.2 (not_lt.mpr hlarge)
      · exact iff_of_false nofun fun h => hoff h.2
      · exact iff_of_true rfl ⟨⟨not_lt.mp hneg, not_le.mp hlarge⟩, not_not.mp hoff⟩

def entriesOf (k : Keeper S) (balances : List FractionalBalance) : List (AccAddress × ℤ) :=
  balances.filterMap fun fb =>
    (k.codec.accAddressFromBech32 fb.address).map fun addr => (addr, fb.amount.getD 0)

theorem setBalances_eq_ok_iff {balances : List FractionalBalance} (hvalid : ValidBalances k balances) :
    k.setBalances ctx balances = .ok ctx' ↔ (∀ entry ∈ k.entriesOf balances, entry.1 ≠ []) ∧
      ctx' = withFractional ctx (assignAll ctx.store.fractionalBalances (k.entriesOf balances)) := by
  induction balances generalizing ctx with
  | nil =>
    change Except.ok ctx = .ok ctx' ↔ _
    simp only [entriesOf, List.filterMap_nil, List.not_mem_nil, false_implies, implies_true, true_and,
      Except.ok.injEq]
    exact eq_comm
  | cons fb balances ih =>
    obtain ⟨heach, hrest⟩ := List.forall_mem_cons.mp hvalid.each
    obtain ⟨addr, amount, haddr, hamount, hpos, hlt⟩ := heach
    have hentries : k.entriesOf (fb :: balances) = (addr, amount) :: k.entriesOf balances := by
      rw [entriesOf, List.filterMap_cons, haddr, hamount]
      rfl
    simp only [setBalances, haddr, hamount, Option.getD_some, bind_eq_ok_iff,
      setFractionalBalance_eq_ok_iff, hentries, List.forall_mem_cons,
      ih ⟨hrest, (List.nodup_cons.mp hvalid.distinct).2⟩]
    constructor
    · rintro ⟨_, ⟨hne, -, rfl⟩, hnes, rfl⟩
      exact ⟨⟨hne, hnes⟩, rfl⟩
    · rintro ⟨⟨hne, hnes⟩, rfl⟩
      exact ⟨_, ⟨hne, ⟨hpos.le, hlt⟩, rfl⟩, hnes, rfl⟩

def Matches (k : Keeper S) (ctx : Ctx S) (gs : GenesisState) : Prop :=
  gs.totalAmountWithRemainder =
    k.bk.getBalance ctx.store.sdk k.reserve.address k.integerCoinDenom * k.conversionFactor

theorem initGenesis_eq_ok_iff {gs : GenesisState} :
    k.initGenesis ctx gs = .ok ctx' ↔ k.validate gs = .ok () ∧
      (k.Matches ctx gs ∨ gs.balances = [] ∧ gs.remainder.getD 0 = 0) ∧
      (∀ entry ∈ k.entriesOf gs.balances, entry.1 ≠ []) ∧
      ctx' = withRemainder (withFractional ctx (assignAll ctx.store.fractionalBalances
        (k.entriesOf gs.balances))) (gs.remainder.getD 0) := by
  unfold initGenesis Matches
  cases hvalidate : k.validate gs with
  | error text => exact iff_of_false nofun fun ⟨hok, _⟩ => nomatch hok
  | ok checked =>
    obtain ⟨hvalid, remainder, hremainder, hdigit, -⟩ := validate_eq_ok_iff.mp hvalidate
    simp only [k.getModuleAccount_moduleName, k.getModuleAddress_moduleName, hremainder, Option.getD_some,
      true_and]
    split_ifs with hmismatch
    · refine iff_of_false nofun fun ⟨hmatch, _⟩ => ?_
      rcases hmatch with heq | hempty
      · exact hmismatch.1 heq
      · exact hmismatch.2 hempty
    · rw [not_and_or, not_not, not_not] at hmismatch
      simp only [bind_eq_ok_iff, setBalances_eq_ok_iff hvalid, setRemainderAmount_eq_ok_iff, hmismatch,
        hdigit, true_and]
      constructor
      · rintro ⟨_, ⟨hne, rfl⟩, rfl⟩
        exact ⟨hne, rfl⟩
      · rintro ⟨hne, rfl⟩
        exact ⟨_, ⟨hne, rfl⟩, rfl⟩

structure AddressTexts (codec : Codec) : Prop where
  decode_text : ∀ {address : AccAddress}, address ≠ [] →
    codec.accAddressFromBech32 (codec.accAddressString address) = some address
  lower_text : ∀ address : AccAddress,
    toLower (codec.accAddressString address) = codec.accAddressString address
  lower_eq : ∀ {left right : String} {address : AccAddress},
    codec.accAddressFromBech32 left = some address → codec.accAddressFromBech32 right = some address →
      toLower left = toLower right

theorem nodup_entriesOf (htexts : AddressTexts k.codec) {balances : List FractionalBalance}
    (hvalid : ValidBalances k balances) : ((k.entriesOf balances).map Prod.fst).Nodup := by
  have hdistinct : balances.Pairwise fun left right => toLower left.address ≠ toLower right.address :=
    List.pairwise_map.mp hvalid.distinct
  unfold entriesOf
  rw [List.map_filterMap]
  refine hdistinct.filterMap _ fun left right hne addr haddr other hother heq => hne ?_
  subst heq
  simp only [Option.map_map, Option.map_eq_some_iff, Function.comp_apply, exists_eq_right] at haddr hother
  exact htexts.lower_eq haddr hother

theorem mem_entriesOf {balances : List FractionalBalance} (hvalid : ValidBalances k balances)
    {entry : AccAddress × ℤ} (hentry : entry ∈ k.entriesOf balances) :
    0 < entry.2 ∧ entry.2 < k.conversionFactor := by
  obtain ⟨fb, hfb, hsome⟩ := List.mem_filterMap.mp hentry
  obtain ⟨addr, amount, haddr, hamount, hrange⟩ := hvalid.each fb hfb
  rw [haddr, hamount, Option.map_some, Option.getD_some, Option.some.injEq] at hsome
  rw [← hsome]
  exact hrange

theorem sum_entriesOf {balances : List FractionalBalance} (hvalid : ValidBalances k balances) :
    ((k.entriesOf balances).map Prod.snd).sum = sumAmount balances := by
  induction balances with
  | nil => rfl
  | cons fb balances ih =>
    obtain ⟨⟨addr, amount, haddr, hamount, -⟩, hrest⟩ := List.forall_mem_cons.mp hvalid.each
    have hsum := ih ⟨hrest, (List.nodup_cons.mp hvalid.distinct).2⟩
    unfold entriesOf at hsum ⊢
    unfold sumAmount at hsum ⊢
    rw [List.filterMap_cons, haddr, Option.map_some, List.map_cons, List.sum_cons, hsum, List.map_cons,
      List.sum_cons]

def Tidy (ledger : Finmap fun _ : AccAddress => ℤ) : Prop :=
  ∀ address ∈ ledger.keys, address ≠ [] ∧ valueAt ledger address ≠ 0

theorem tidy_empty : Tidy ∅ := by
  intro address hmem
  rw [Finmap.keys_empty] at hmem
  exact absurd hmem (Finset.notMem_empty address)

theorem Tidy.assign {ledger : Finmap fun _ : AccAddress => ℤ} (htidy : Tidy ledger) {address : AccAddress}
    (haddress : address ≠ []) (amount : ℤ) : Tidy (assign ledger address amount) := by
  intro other hother
  rw [valueAt_assign]
  by_cases heq : other = address
  · rw [if_pos heq, heq]
    refine ⟨haddress, fun hzero => ?_⟩
    rw [SparseLedger.assign, if_pos hzero, heq, Finmap.mem_keys] at hother
    exact Finmap.notMem_erase_self hother
  · rw [if_neg heq]
    exact htidy other ((Finset.mem_insert.mp (keys_assign_subset ledger address amount hother)).resolve_left
      heq)

theorem Tidy.assignAll {ledger : Finmap fun _ : AccAddress => ℤ} (htidy : Tidy ledger)
    {entries : List (AccAddress × ℤ)} (hne : ∀ entry ∈ entries, entry.1 ≠ []) :
    Tidy (assignAll ledger entries) := by
  induction entries generalizing ledger with
  | nil => exact htidy
  | cons head entries ih =>
    obtain ⟨hhead, hrest⟩ := List.forall_mem_cons.mp hne
    exact ih (htidy.assign hhead head.2) hrest

theorem Tidy.keys_eq_empty_iff {ledger : Finmap fun _ : AccAddress => ℤ} (htidy : Tidy ledger) :
    ledger.keys = ∅ ↔ ∀ address, valueAt ledger address = 0 := by
  constructor
  · intro hempty address
    exact valueAt_eq_zero_of_notMem_keys (hempty ▸ Finset.notMem_empty address)
  · intro hzero
    exact Finset.eq_empty_of_forall_notMem fun address hmem => (htidy address hmem).2 (hzero address)

def surplusOf (k : Keeper S) (ctx : Ctx S) (gs : GenesisState) : ℤ :=
  k.bk.getBalance ctx.store.sdk k.reserve.address k.integerCoinDenom * k.conversionFactor -
    gs.totalAmountWithRemainder

theorem surplusOf_eq_zero_iff {gs : GenesisState} : k.surplusOf ctx gs = 0 ↔ k.Matches ctx gs :=
  sub_eq_zero.trans eq_comm

/-- The entries are distinct accounts, so that the stored fractions add up to the listed ones. -/
theorem initGenesis_spec (htexts : AddressTexts k.codec) {gs : GenesisState}
    (hfresh : ctx.store.fractionalBalances = ∅) (hinit : k.initGenesis ctx gs = .ok ctx') :
    BackedWith k (k.surplusOf ctx gs) (getFractionalBalance ctx' k.reserve.address) ctx' ∧
      Tidy ctx'.store.fractionalBalances ∧
      (k.reserve.address ∉ (k.entriesOf gs.balances).map Prod.fst →
        getFractionalBalance ctx' k.reserve.address = 0) := by
  obtain ⟨hvalidate, -, hne, rfl⟩ := initGenesis_eq_ok_iff.mp hinit
  obtain ⟨hvalid, remainder, hremainder, hdigit, -⟩ := validate_eq_ok_iff.mp hvalidate
  have hnodup := nodup_entriesOf htexts hvalid
  have hzero : ∀ address : AccAddress, valueAt (∅ : Finmap fun _ : AccAddress => ℤ) address = 0 :=
    fun _ => rfl
  rw [hfresh, hremainder, Option.getD_some]
  have htotal : getTotalSumFractionalBalances (withRemainder (withFractional ctx
      (assignAll ∅ (k.entriesOf gs.balances))) remainder) = sumAmount gs.balances := by
    rw [← sum_entriesOf hvalid]
    exact (total_assignAll ∅ hnodup fun entry _ => hzero entry.1).trans (zero_add _)
  have hfraction : ∀ address, getFractionalBalance (withRemainder (withFractional ctx
      (assignAll ∅ (k.entriesOf gs.balances))) remainder) address =
        valueAt (assignAll ∅ (k.entriesOf gs.balances)) address := fun _ => rfl
  refine ⟨⟨?_, fun address => ?_, rfl, ?_⟩, ?_, fun hreserve => ?_⟩
  · rw [htotal, getRemainderAmount_withRemainder, surplusOf, GenesisState.totalAmountWithRemainder, hremainder,
      Option.getD_some, add_sub_cancel]
    rfl
  · rw [hfraction]
    by_cases hmem : address ∈ (k.entriesOf gs.balances).map Prod.fst
    · obtain ⟨entry, hentry, rfl⟩ := List.mem_map.mp hmem
      rw [valueAt_assignAll_of_mem ∅ hnodup hentry]
      exact ⟨(mem_entriesOf hvalid hentry).1.le, (mem_entriesOf hvalid hentry).2⟩
    · rw [valueAt_assignAll_of_notMem ∅ hmem, hzero]
      exact ⟨le_rfl, k.conversionFactor_pos⟩
  · rw [getRemainderAmount_withRemainder]
    exact hdigit
  · exact tidy_empty.assignAll hne
  · rw [hfraction, valueAt_assignAll_of_notMem ∅ hreserve, hzero]

structure Kept (k : Keeper S) (surplus own : ℤ) (ctx : Ctx S) : Prop where
  backed : BackedWith k surplus own ctx
  tidy : Tidy ctx.store.fractionalBalances

variable {surplus own : ℤ}

theorem BankMove.fractionalBalances_eq {flow : (AccAddress → ℤ) → Denom → ℤ} (hmove : BankMove k ctx ctx' flow) :
    ctx'.store.fractionalBalances = ctx.store.fractionalBalances := by
  rw [hmove.store_eq]

theorem FractionalSend.tidy {sender recipient : AccAddress} {amt : ℤ}
    (hsent : FractionalSend k ctx sender recipient amt ctx') (htidy : Tidy ctx.store.fractionalBalances) :
    Tidy ctx'.store.fractionalBalances := by
  cases hsent with
  | self => exact htidy
  | moved _ hsender hrecipient hmove =>
    rw [← hmove.fractionalBalances_eq] at htidy
    exact (htidy.assign hsender _).assign hrecipient _

theorem FractionalChange.tidy {address : AccAddress} {delta : ℤ} (hchange : FractionalChange k ctx address delta ctx')
    (haddress : address ≠ []) (htidy : Tidy ctx.store.fractionalBalances) : Tidy ctx'.store.fractionalBalances := by
  obtain ⟨hmove, -⟩ := hchange
  rw [← hmove.fractionalBalances_eq] at htidy
  exact htidy.assign haddress _

section

variable (hbank : MovesExactly k.bk k.modules) (hkept : Kept k surplus own ctx)

include hbank hkept

theorem Kept.of_bankMove {flow : (AccAddress → ℤ) → Denom → ℤ} (hmove : BankMove k ctx ctx' flow)
    (hflow : flow (weightOf k.reserve.address) k.integerCoinDenom = 0) : Kept k surplus own ctx' :=
  ⟨hkept.backed.of_bankMove hbank hmove hflow, hmove.fractionalBalances_eq ▸ hkept.tidy⟩

theorem Kept.exec {call : Call} (havoids : k.reserve.address ∉ call.parties k)
    (hok : call.exec k ctx = .ok ctx') : Kept k surplus own ctx' := by
  refine Call.exec_keeps hbank Kept.backed (fun h => h.of_bankMove hbank) ?_ ?_ havoids hkept hok
  · intro ctx ctx' sender recipient amt h hsender hrecipient hsent
    exact ⟨h.backed.of_fractionalSend hbank hsender hrecipient hsent, hsent.tidy h.tidy⟩
  · intro ctx ctx' delta acc h hne hchange
    exact ⟨h.backed.of_fractionalChange hbank hne hchange, hchange.tidy acc.address_ne_nil h.tidy⟩

end

theorem kept_of_run (hbank : MovesExactly k.bk k.modules) {calls : List Call}
    (havoids : ∀ call ∈ calls, k.reserve.address ∉ call.parties k) (hstart : Kept k surplus own ctx)
    (hrun : run (Call.exec k) ctx calls = .ok ctx') : Kept k surplus own ctx' :=
  run_invariant (fun havoid hkept hok => hkept.exec hbank havoid hok) havoids hstart hrun

/-- The stores before a chain that starts over from an export: those of x/precisebank are empty. -/
def restart (ctx : Ctx S) : Ctx S :=
  withRemainder (withFractional ctx ∅) 0

theorem sumAmount_exportGenesis (k : Keeper S) (ctx : Ctx S) :
    sumAmount (k.exportGenesis ctx).balances = getTotalSumFractionalBalances ctx := by
  unfold sumAmount exportGenesis
  rw [List.map_map]
  change ((ctx.store.fractionalBalances.keys.sort (· ≤ ·)).map (getFractionalBalance ctx)).sum = _
  rw [← List.sum_toFinset _ (Finset.sort_nodup _ _), Finset.sort_toFinset]
  rfl

theorem entriesOf_exportGenesis (htexts : AddressTexts k.codec) (htidy : Tidy ctx.store.fractionalBalances) :
    k.entriesOf (k.exportGenesis ctx).balances =
      (ctx.store.fractionalBalances.keys.sort (· ≤ ·)).map fun address =>
        (address, getFractionalBalance ctx address) := by
  unfold entriesOf exportGenesis
  rw [List.filterMap_map, ← List.filterMap_eq_map]
  refine List.filterMap_congr fun address hmem => ?_
  have hne := (htidy address ((Finset.mem_sort _).mp hmem)).1
  simp only [Function.comp_apply, htexts.decode_text hne, Option.map_some, Option.getD_some]

theorem Kept.validBalances_exportGenesis (htexts : AddressTexts k.codec) (hkept : Kept k surplus own ctx) :
    ValidBalances k (k.exportGenesis ctx).balances where
  each fb hfb := by
    obtain ⟨address, hmem, rfl⟩ := List.mem_map.mp hfb
    obtain ⟨hne, hvalue⟩ := hkept.tidy address ((Finset.mem_sort _).mp hmem)
    have hdigit := hkept.backed.fractional address
    exact ⟨address, _, htexts.decode_text hne, rfl, lt_of_le_of_ne hdigit.1 (Ne.symm hvalue), hdigit.2⟩
  distinct := by
    unfold exportGenesis
    rw [List.map_map, List.nodup_map_iff_inj_on (Finset.sort_nodup _ _)]
    intro left hleft right hright heq
    have hne : left ≠ [] := (hkept.tidy left ((Finset.mem_sort _).mp hleft)).1
    have hne' : right ≠ [] := (hkept.tidy right ((Finset.mem_sort _).mp hright)).1
    simp only [Function.comp_apply, htexts.lower_text] at heq
    have hdecode := htexts.decode_text hne
    rw [heq, htexts.decode_text hne', Option.some.injEq] at hdecode
    exact hdecode.symm

theorem Kept.total_exportGenesis (hkept : Kept k surplus own ctx) :
    (k.exportGenesis ctx).totalAmountWithRemainder =
      k.bk.getBalance ctx.store.sdk k.reserve.address k.integerCoinDenom * k.conversionFactor - surplus := by
  rw [hkept.backed.backing, GenesisState.totalAmountWithRemainder, sumAmount_exportGenesis, add_sub_cancel_right]
  rfl

theorem Kept.validate_exportGenesis (htexts : AddressTexts k.codec) (hkept : Kept k surplus own ctx)
    (hsurplus : k.conversionFactor ∣ surplus) : k.validate (k.exportGenesis ctx) = .ok () := by
  refine validate_eq_ok_iff.mpr ⟨hkept.validBalances_exportGenesis htexts, _, rfl, hkept.backed.remainder, ?_⟩
  rw [hkept.total_exportGenesis]
  exact Int.dvd_sub (dvd_mul_left _ _) hsurplus

structure SameFractions (ctx ctx' : Ctx S) : Prop where
  fractional : ∀ a, getFractionalBalance ctx' a = getFractionalBalance ctx a
  remainder : getRemainderAmount ctx' = getRemainderAmount ctx

theorem Kept.exists_initGenesis_iff (htexts : AddressTexts k.codec) (hkept : Kept k surplus own ctx)
    (hsurplus : k.conversionFactor ∣ surplus) :
    (∃ ctx', k.initGenesis (restart ctx) (k.exportGenesis ctx) = .ok ctx') ↔
      surplus = 0 ∨ (∀ a, getFractionalBalance ctx a = 0) ∧ getRemainderAmount ctx = 0 := by
  have hmatches : k.Matches (restart ctx) (k.exportGenesis ctx) ↔ surplus = 0 := by
    rw [Matches, hkept.total_exportGenesis]
    exact sub_eq_self
  have hempty : (k.exportGenesis ctx).balances = [] ↔ ∀ a, getFractionalBalance ctx a = 0 := by
    refine Iff.trans ?_ hkept.tidy.keys_eq_empty_iff
    unfold exportGenesis
    rw [List.map_eq_nil_iff, ← Finset.sort_toFinset ctx.store.fractionalBalances.keys (· ≤ ·),
      List.toFinset_eq_empty_iff, Finset.sort_toFinset]
  have hne : ∀ entry ∈ k.entriesOf (k.exportGenesis ctx).balances, entry.1 ≠ [] := by
    intro entry hentry
    rw [entriesOf_exportGenesis htexts hkept.tidy] at hentry
    obtain ⟨address, hmem, rfl⟩ := List.mem_map.mp hentry
    exact (hkept.tidy address ((Finset.mem_sort _).mp hmem)).1
  have hok : ∀ ctx', k.initGenesis (restart ctx) (k.exportGenesis ctx) = .ok ctx' ↔ _ := fun ctx' =>
    initGenesis_eq_ok_iff
  rw [hmatches, hempty] at hok
  constructor
  · rintro ⟨ctx', hinit⟩
    exact ((hok ctx').mp hinit).2.1
  · intro hcase
    exact ⟨_, (hok _).mpr ⟨hkept.validate_exportGenesis htexts hsurplus, hcase, hne, rfl⟩⟩

theorem Kept.sameFractions_initGenesis (htexts : AddressTexts k.codec) (hkept : Kept k surplus own ctx)
    (hinit : k.initGenesis (restart ctx) (k.exportGenesis ctx) = .ok ctx') : SameFractions ctx ctx' := by
  obtain ⟨-, -, -, rfl⟩ := initGenesis_eq_ok_iff.mp hinit
  refine ⟨fun a => ?_, getRemainderAmount_withRemainder _⟩
  change valueAt (assignAll ∅ (k.entriesOf (k.exportGenesis ctx).balances)) a =
    valueAt ctx.store.fractionalBalances a
  rw [entriesOf_exportGenesis htexts hkept.tidy]
  have hkeys : ((ctx.store.fractionalBalances.keys.sort (· ≤ ·)).map fun address =>
      (address, getFractionalBalance ctx address)).map Prod.fst =
        ctx.store.fractionalBalances.keys.sort (· ≤ ·) := by
    rw [List.map_map]
    exact List.map_id _
  by_cases hmem : a ∈ ctx.store.fractionalBalances.keys
  · exact valueAt_assignAll_of_mem ∅ (by rw [hkeys]; exact Finset.sort_nodup _ _)
      (List.mem_map.mpr ⟨a, (Finset.mem_sort _).mpr hmem, rfl⟩)
  · rw [valueAt_assignAll_of_notMem ∅ (by rw [hkeys]; exact fun h => hmem ((Finset.mem_sort _).mp h)),
      valueAt_eq_zero_of_notMem_keys hmem]
    rfl

theorem dvd_surplusOf {gs : GenesisState} (hvalidate : k.validate gs = .ok ()) :
    k.conversionFactor ∣ k.surplusOf ctx gs := by
  obtain ⟨-, -, -, -, hdvd⟩ := validate_eq_ok_iff.mp hvalidate
  exact Int.dvd_sub (dvd_mul_left _ _) hdvd

theorem surplusOf_nonneg (hbank : Lawful k.bk k.modules) {gs : GenesisState}
    (hinit : k.initGenesis ctx gs = .ok ctx') : 0 ≤ k.surplusOf ctx gs := by
  obtain ⟨-, hmatches | ⟨hbalances, hremainder⟩, -⟩ := initGenesis_eq_ok_iff.mp hinit
  · exact (surplusOf_eq_zero_iff.mpr hmatches).ge
  · have hreserve := hbank.spendable_nonneg ctx.store.sdk k.reserve.address k.integerCoinDenom
    rw [hbank.module_spendable k.getModuleAccount_moduleName] at hreserve
    rw [surplusOf, GenesisState.totalAmountWithRemainder, hbalances, hremainder]
    exact sub_nonneg.mpr (mul_nonneg hreserve k.conversionFactor_pos.le)

def hexCodec : Codec :=
  { textCodec with
    accAddressString := fun address => String.ofList (Hex.encodeToString address)
    accAddressFromBech32 := fun text =>
      let decoded := (Hex.decodeString text.toList).1
      if Hex.encodeToString decoded = text.toList then some decoded else none }

theorem addressTexts_hexCodec : AddressTexts hexCodec where
  decode_text {address} _ := by
    simp only [hexCodec, String.toList_ofList, Hex.decodeString_encodeToString, if_true]
  lower_text address := by
    have hbyte : ∀ byte : Byte, [Nat.digitChar (byte.val / 16), Nat.digitChar (byte.val % 16)].map
        Char.toLower = [Nat.digitChar (byte.val / 16), Nat.digitChar (byte.val % 16)] := by
      decide +kernel
    simp only [hexCodec, toLower, String.toList_ofList, Hex.encodeToString, List.map_flatMap, hbyte]
  lower_eq {left right address} hleft hright := by
    simp only [hexCodec, Option.ite_none_right_eq_some, Option.some.injEq] at hleft hright
    rw [hleft.2] at hleft
    rw [hright.2] at hright
    rw [toLower, toLower, ← hleft.1, ← hright.1]

def hexKeeper (coinInfo : EvmCoinInfo) : Keeper (Ledger Evmd.moduleAccounts) :=
  { Evmd.preciseBankKeeper coinInfo with codec := hexCodec }

theorem hexKeeper_lawful (coinInfo : EvmCoinInfo) :
    (hexKeeper coinInfo).bk.Lawful (hexKeeper coinInfo).modules := Evmd.preciseBankKeeper_lawful coinInfo

/-- Whatever passes `InitGenesis` is covered by the reserve. Every state that calls between other accounts
lead to exports a valid genesis, which restores it, unless coins that were in the reserve of an empty genesis
stand beside fractions or a remainder. -/
theorem genesis_covered_exported (hbank : Lawful k.bk k.modules) (htexts : AddressTexts k.codec)
    {gs : GenesisState} (hfresh : ctx.store.fractionalBalances = ∅)
    (hinit : k.initGenesis ctx gs = .ok ctx') :
    (getTotalSumFractionalBalances ctx' + getRemainderAmount ctx' ≤
        k.bk.getBalance ctx'.store.sdk k.reserve.address k.integerCoinDenom * k.conversionFactor ∧
      (∀ a, IsDigit k.conversionFactor (getFractionalBalance ctx' a)) ∧
      IsDigit k.conversionFactor (getRemainderAmount ctx') ∧
      ((∀ fb ∈ gs.balances, k.codec.accAddressFromBech32 fb.address ≠ some k.reserve.address) →
        getFractionalBalance ctx' k.reserve.address = 0)) ∧
    ∀ (calls : List Call) (ctx'' : Ctx S),
      (∀ call ∈ calls, k.reserve.address ∉ call.parties k) → run (Call.exec k) ctx' calls = .ok ctx'' →
        k.validate (k.exportGenesis ctx'') = .ok () ∧
        ((∃ again, k.initGenesis (restart ctx'') (k.exportGenesis ctx'') = .ok again) ↔
          k.Matches ctx gs ∨ (∀ a, getFractionalBalance ctx'' a = 0) ∧ getRemainderAmount ctx'' = 0) ∧
        ∀ again, k.initGenesis (restart ctx'') (k.exportGenesis ctx'') = .ok again →
          SameFractions ctx'' again := by
  obtain ⟨hbacked, htidy, hreserve⟩ := initGenesis_spec htexts hfresh hinit
  have hvalidate := (initGenesis_eq_ok_iff.mp hinit).1
  have hdvd : k.conversionFactor ∣ k.surplusOf ctx gs := dvd_surplusOf hvalidate
  refine ⟨⟨?_, hbacked.fractional, hbacked.remainder, fun hlisted => hreserve fun hmem => ?_⟩,
    fun calls ctx'' havoids hrun => ?_⟩
  · rw [hbacked.backing]
    linarith [surplusOf_nonneg hbank hinit]
  · obtain ⟨entry, hentry, heq⟩ := List.mem_map.mp hmem
    obtain ⟨fb, hfb, hsome⟩ := List.mem_filterMap.mp hentry
    obtain ⟨addr, haddr, rfl⟩ := Option.map_eq_some_iff.mp hsome
    exact hlisted fb hfb (heq ▸ haddr)
  · have hkept := kept_of_run hbank.toMovesExactly havoids ⟨hbacked, htidy⟩ hrun
    refine ⟨hkept.validate_exportGenesis htexts hdvd, ?_, fun again => hkept.sameFractions_initGenesis htexts⟩
    rw [hkept.exists_initGenesis_iff htexts hdvd, surplusOf_eq_zero_iff]

/-- Two fractions and a remainder over a reserve of two coins, of which a mint and a transfer use one up. -/
theorem exported_sixDecimals :
    let alice : AccAddress := List.replicate 20 7
    let bob : AccAddress := List.replicate 20 8
    let k := hexKeeper Evmd.sixDecimalsCoin
    let gs : GenesisState := ⟨[⟨hexCodec.accAddressString alice, some 600000000000⟩,
      ⟨hexCodec.accAddressString bob, some 600000000000⟩], some 800000000000⟩
    let ctx := Evmd.genesisContext [(k.reserve.address, [⟨"utest", 2⟩])]
    let calls : List Call := [.mintCoins "evm" [⟨"atest", 900000000000⟩],
      .sendCoins alice bob [⟨"atest", 500000000000⟩]]
    ∃ ctx' ctx'' again, k.initGenesis ctx gs = .ok ctx' ∧ run (Call.exec k) ctx' calls = .ok ctx'' ∧
      k.initGenesis (restart ctx'') (k.exportGenesis ctx'') = .ok again ∧ SameFractions ctx'' again := by
  intro alice bob k gs ctx calls
  have hinit : (k.initGenesis ctx gs).toOption.isSome = true := by decide +kernel
  obtain ⟨ctx', hctx'⟩ := exists_eq_ok_of_isSome hinit
  have hrun : ((k.initGenesis ctx gs).bind fun ctx' => run (Call.exec k) ctx' calls).toOption.isSome = true := by
    decide +kernel
  obtain ⟨ctx'', hctx''⟩ := exists_eq_ok_of_isSome hrun
  rw [hctx'] at hctx''
  have hlaw := (genesis_covered_exported (k := k) (hexKeeper_lawful Evmd.sixDecimalsCoin)
    addressTexts_hexCodec rfl hctx').2 calls ctx'' (by decide +kernel) hctx''
  have hmatches : k.Matches ctx gs := by
    unfold Matches
    decide +kernel
  obtain ⟨again, hagain⟩ := hlaw.2.1.mpr (.inl hmatches)
  exact ⟨ctx', ctx'', again, hctx', hctx'', hagain, hlaw.2.2 again hagain⟩

/-- The default genesis passes over a reserve that holds a coin. After a mint of one unit the export is valid,
and no chain starts from it. -/
theorem default_over_reserve_not_restored :
    let k := hexKeeper Evmd.sixDecimalsCoin
    let ctx := Evmd.genesisContext [(k.reserve.address, [⟨"utest", 1⟩])]
    k.validate defaultGenesisState = .ok () ∧
    ∃ ctx' ctx'', k.initGenesis ctx defaultGenesisState = .ok ctx' ∧
      run (Call.exec k) ctx' [.mintCoins "evm" [⟨"atest", 1⟩]] = .ok ctx'' ∧
      k.validate (k.exportGenesis ctx'') = .ok () ∧
      ¬ ∃ again, k.initGenesis (restart ctx'') (k.exportGenesis ctx'') = .ok again := by
  intro k ctx
  have hinit : (k.initGenesis ctx defaultGenesisState).toOption.isSome = true := by decide +kernel
  obtain ⟨ctx', hctx'⟩ := exists_eq_ok_of_isSome hinit
  have hvalue : ((k.initGenesis ctx defaultGenesisState).bind fun ctx' =>
      run (Call.exec k) ctx' [.mintCoins "evm" [⟨"atest", 1⟩]]).toOption.map
        (fun ctx'' => getFractionalBalance ctx'' (Evmd.moduleAddress "evm").bytes) = some 1 := by
    decide +kernel
  rw [hctx'] at hvalue
  obtain ⟨ctx'', hsome, hone⟩ := Option.map_eq_some_iff.mp hvalue
  have hctx'' : run (Call.exec k) ctx' [.mintCoins "evm" [⟨"atest", 1⟩]] = .ok ctx'' :=
    toOption_eq_some_iff.mp hsome
  have hvalid : k.validate defaultGenesisState = .ok () := (initGenesis_eq_ok_iff.mp hctx').1
  obtain ⟨hbacked, htidy, -⟩ := initGenesis_spec addressTexts_hexCodec rfl hctx'
  have hkept := kept_of_run (k := k) (hexKeeper_lawful Evmd.sixDecimalsCoin).toMovesExactly
    (by decide +kernel) ⟨hbacked, htidy⟩ hctx''
  have hdvd : k.conversionFactor ∣ k.surplusOf ctx defaultGenesisState := dvd_surplusOf hvalid
  refine ⟨hvalid, ctx', ctx'', hctx', hctx'', hkept.validate_exportGenesis addressTexts_hexCodec hdvd, ?_⟩
  rw [hkept.exists_initGenesis_iff addressTexts_hexCodec hdvd]
  rintro (hzero | ⟨hnone, -⟩)
  · have hsurplus : k.surplusOf ctx defaultGenesisState = 1000000000000 := by decide +kernel
    rw [hsurplus] at hzero
    exact absurd hzero (by decide)
  · rw [hnone] at hone
    exact absurd hone (by decide)

end Keeper

end CosmosEvm.PreciseBank

import CosmosEvm.Evmd.Chain
import CosmosEvm.Lib.LastWriter

/-!
# Block hashes

`BeginBlock` stores the hash of the block in the history contract, at its height modulo the window in
effect, and BLOCKHASH reads the slot of a height under the window then in effect.
-/

namespace CosmosEvm.Vm

open LastWriter

def historyStorageAddress : Address :=
  bytesToAddress [0x00, 0x00, 0xf9, 0x08, 0x27, 0xf1, 0xc5, 0x3a, 0x10, 0xcb, 0x7a, 0x02, 0x33, 0x5b,
    0x17, 0x53, 0x20, 0x00, 0x29, 0x35]

def defaultHistoryServeWindow : ℕ := 8192

def serveWindow (historyServeWindow : UInt64) : ℕ :=
  if 0 < historyServeWindow then historyServeWindow.toNat else defaultHistoryServeWindow

def ringKey (historyServeWindow : UInt64) (height : ℕ) : Hash :=
  bytesToHash (bigEndian 8 (height % serveWindow historyServeWindow))

/-- What a context tells of its block. The hash of the header is recomputed where the context carries
none and `HeaderFromProto` accepts the header. -/
structure BlockContext where
  height : ℕ
  headerHash : Bytes
  recomputedHash : Option Bytes
  historyServeWindow : UInt64
  baseFee : Option String

namespace Keeper

variable {S Acc : Type} (k : Keeper S Acc)

/-- The condition of `SetHeaderHash`: the history contract has code. -/
def historyDeployed (store : MultiStore S) : Bool :=
  match k.getAccount store historyStorageAddress with
  | some acct => acct.codeHash ≠ k.emptyCodeHash
  | none => false

def setHeaderHash (ctx : Ctx S) (block : BlockContext) : Ctx S :=
  if k.historyDeployed ctx.store then
    setState ctx historyStorageAddress (ringKey block.historyServeWindow block.height) block.headerHash
  else ctx

def getHeaderHash (store : MultiStore S) (block : BlockContext) (height : ℕ) : Hash :=
  getState store historyStorageAddress (ringKey block.historyServeWindow height)

def getHashFn (store : MultiStore S) (block : BlockContext) (height : ℕ) : Hash :=
  if 2 ^ 63 ≤ height then Statedb.zeroHash
  else if block.height = height then
    if block.headerHash ≠ [] then bytesToHash block.headerHash
    else (block.recomputedHash.map bytesToHash).getD Statedb.zeroHash
  else if height < block.height then getHeaderHash store block height
  else Statedb.zeroHash

def beginBlock (ctx : Ctx S) (block : BlockContext) : Ctx S :=
  let ctx := ctx.emitEvents
    (block.baseFee.toList.map fun baseFee => ⟨"evm_fee_market", [("base_fee", baseFee)]⟩)
  k.setHeaderHash ctx block

theorem setHeaderHash_storage (ctx : Ctx S) (block : BlockContext) (key : Hash) :
    (k.setHeaderHash ctx block).store.evm.storage.lookup (historyStorageAddress, key) =
      if k.historyDeployed ctx.store ∧ ringKey block.historyServeWindow block.height = key then
        some block.headerHash
      else ctx.store.evm.storage.lookup (historyStorageAddress, key) := by
  unfold setHeaderHash
  by_cases hdeployed : k.historyDeployed ctx.store = true
  · rw [if_pos hdeployed]
    change (ctx.store.evm.storage.insert _ _).lookup _ = _
    by_cases hkey : ringKey block.historyServeWindow block.height = key
    · rw [if_pos ⟨hdeployed, hkey⟩, ← hkey, Finmap.lookup_insert]
    · rw [if_neg fun hboth => hkey hboth.2, Finmap.lookup_insert_of_ne]
      intro heq
      exact hkey (Prod.mk.inj heq).2.symm
  · rw [if_neg hdeployed, if_neg fun hboth => hdeployed hboth.1]

theorem historyDeployed_setHeaderHash (ctx : Ctx S) (block : BlockContext) :
    k.historyDeployed (k.setHeaderHash ctx block).store = k.historyDeployed ctx.store := by
  unfold setHeaderHash
  split <;> rfl

end Keeper

/-- A run of blocks from an empty history. After `BeginBlock` of a height, `execute` is the rest of that
block. Only `SetHeaderHash` writes to the storage of the history contract. -/
structure BlockRun (S : Type) where
  genesis : Ctx S
  headerHash : ℕ → Hash
  historyServeWindow : ℕ → UInt64
  baseFee : ℕ → Option String
  execute : ℕ → Ctx S → Ctx S
  genesis_storage : ∀ key, genesis.store.evm.storage.lookup (historyStorageAddress, key) = none
  execute_storage : ∀ height ctx key,
    (execute height ctx).store.evm.storage.lookup (historyStorageAddress, key) =
      ctx.store.evm.storage.lookup (historyStorageAddress, key)

namespace BlockRun

variable {S Acc : Type} (run : BlockRun S) (k : Keeper S Acc)

def blockContext (height : ℕ) : BlockContext where
  height := height
  headerHash := (run.headerHash height).bytes
  recomputedHash := none
  historyServeWindow := run.historyServeWindow height
  baseFee := run.baseFee height

def afterBeginBlock : ℕ → Ctx S
  | 0 => run.genesis
  | height + 1 => k.beginBlock (run.execute height (afterBeginBlock height)) (run.blockContext (height + 1))

def hadCode : ℕ → Bool
  | 0 => false
  | height + 1 => k.historyDeployed (run.execute height (run.afterBeginBlock k height)).store

def writes (height : ℕ) : Option Hash :=
  if run.hadCode k height then some (ringKey (run.historyServeWindow height) height) else none

def During (height : ℕ) (ctx : Ctx S) : Prop :=
  ∀ key, ctx.store.evm.storage.lookup (historyStorageAddress, key) =
    (run.afterBeginBlock k height).store.evm.storage.lookup (historyStorageAddress, key)

def BlockHashRight (height : ℕ) : Prop :=
  ∀ ctx, run.During k height ctx → ∀ h, height ≤ h + 256 → h < height →
    (Keeper.getHashFn ctx.store (run.blockContext height) h = run.headerHash h ∨
      Keeper.getHashFn ctx.store (run.blockContext height) h = Statedb.zeroHash) ∧
    (0 < h → (∀ i, 0 < i → height ≤ i + 256 → i < height → run.hadCode k i = true) →
      Keeper.getHashFn ctx.store (run.blockContext height) h = run.headerHash h)

/-- Under the window of a height, the slot of each height that BLOCKHASH reaches was last written by the
block of that height, or never, and not never if the history contract had code all along. -/
def SlotsKept (height : ℕ) : Prop :=
  ∀ h, height ≤ h + 256 → h < height →
    (∀ last, lastWriter (run.writes k) (ringKey (run.historyServeWindow height) h) height = some last →
      last = h) ∧
    (0 < h → (∀ i, 0 < i → height ≤ i + 256 → i < height → run.hadCode k i = true) →
      lastWriter (run.writes k) (ringKey (run.historyServeWindow height) h) height ≠ none)

variable {run k} {height h : ℕ} {ctx : Ctx S}

theorem afterBeginBlock_storage (run : BlockRun S) (k : Keeper S Acc) (height : ℕ) (key : Hash) :
    (run.afterBeginBlock k height).store.evm.storage.lookup (historyStorageAddress, key) =
      (lastWriter (run.writes k) key height).elim none fun last =>
        some (run.headerHash last).bytes := by
  refine cell_eq (fun height key => (run.afterBeginBlock k height).store.evm.storage.lookup
    (historyStorageAddress, key)) (fun last => some (run.headerHash last).bytes) run.genesis_storage
    (fun height key => ?_) height key
  rw [afterBeginBlock, Keeper.beginBlock, Keeper.setHeaderHash_storage, Context.emitEvents_store,
    run.execute_storage]
  unfold writes
  cases hcode : run.hadCode k (height + 1) <;> rw [hadCode] at hcode <;> simp [hcode, blockContext]

theorem getHashFn_eq (hlt : height < 2 ^ 63) (hduring : run.During k height ctx) (hpast : h < height) :
    Keeper.getHashFn ctx.store (run.blockContext height) h =
      (lastWriter (run.writes k) (ringKey (run.historyServeWindow height) h) height).elim
        Statedb.zeroHash run.headerHash := by
  have hread : Keeper.getHashFn ctx.store (run.blockContext height) h =
      Keeper.getState ctx.store historyStorageAddress (ringKey (run.historyServeWindow height) h) := by
    have hheight : (run.blockContext height).height = height := rfl
    unfold Keeper.getHashFn
    rw [hheight, if_neg (by omega), if_neg (by omega), if_pos hpast]
    rfl
  have hlookup := hduring (ringKey (run.historyServeWindow height) h)
  rw [afterBeginBlock_storage] at hlookup
  rw [hread]
  cases hlast : lastWriter (run.writes k) (ringKey (run.historyServeWindow height) h) height with
  | none =>
    rw [hlast] at hlookup
    change _ = none at hlookup
    unfold Keeper.getState
    rw [hlookup]
    rfl
  | some last =>
    rw [hlast] at hlookup
    exact Keeper.getState_of_lookup_bytes hlookup

theorem ringKey_inj {window : UInt64} {i j : ℕ} (heq : ringKey window i = ringKey window j) :
    i % serveWindow window = j % serveWindow window := by
  have hpos : 0 < serveWindow window := by
    unfold serveWindow
    split
    · assumption
    · decide
  have hle : serveWindow window ≤ 256 ^ 8 := by
    unfold serveWindow
    split
    · exact window.toNat_lt.le
    · decide
  refine bigEndian_inj ((Nat.mod_lt i hpos).trans_le hle) ((Nat.mod_lt j hpos).trans_le hle) ?_
  exact bytesToHash_inj (by simp) (by simp) heq

/-- Fewer than a window of blocks apart, two heights have different slots. -/
theorem slotsKept_of_window {window : UInt64}
    (hwindow : ∀ i, 0 < i → i ≤ height → run.historyServeWindow i = window)
    (hlong : 256 < serveWindow window)
    (hcode : ∀ i, 0 < i → i < height → run.hadCode k i = true → run.hadCode k (i + 1) = true) :
    run.SlotsKept k height := by
  intro h hrange hpast
  rw [hwindow height (by omega) le_rfl]
  -- a block after `h` is fewer than a window away, so that its slot is another one
  have hlater : ∀ u, h < u → u ≤ height → run.writes k u ≠ some (ringKey window h) := by
    intro u hlt hle hwrites
    unfold writes at hwrites
    split at hwrites
    · rw [hwindow u (by omega) hle] at hwrites
      have hmod := ringKey_inj (Option.some.inj hwrites)
      have hdvd := Nat.dvd_of_mod_eq_zero (Nat.sub_mod_eq_zero_of_mod_eq hmod)
      exact absurd (Nat.le_of_dvd (by omega) hdvd) (by omega)
    · cases hwrites
  have hself : 0 < h → run.hadCode k h = true →
      lastWriter (run.writes k) (ringKey window h) height = some h := by
    intro hpos hdeployed
    apply lastWriter_eq_some hpos hpast.le _ hlater
    rw [writes, if_pos hdeployed, hwindow h hpos hpast.le]
  refine ⟨fun last hlast => ?_, fun hpos hdeployed => ?_⟩
  · obtain ⟨hpos, hle, hwrites⟩ := lastWriter_spec hlast
    have hbefore : last ≤ h := by
      by_contra hafter
      exact hlater last (by omega) hle hwrites
    have hkept : ∀ i, last ≤ i → i ≤ h → run.hadCode k i = true := by
      intro i hfrom
      induction i, hfrom using Nat.le_induction with
      | base =>
        intro _
        unfold writes at hwrites
        split at hwrites
        · assumption
        · cases hwrites
      | succ i hfrom ih =>
        intro hto
        exact hcode i (by omega) (by omega) (ih (by omega))
    have hlast' := hself (by omega) (hkept h hbefore le_rfl)
    rw [hlast] at hlast'
    exact Option.some.inj hlast'
  · rw [hself hpos (hdeployed h hpos hrange hpast)]
    exact Option.some_ne_none h

/-- BLOCKHASH is right or zero where the slots are kept, and only there. -/
theorem blockHashRight_iff (hlt : height < 2 ^ 63)
    (hinj : ∀ i ≤ height, ∀ j ≤ height, run.headerHash i = run.headerHash j → i = j)
    (hzero : ∀ i ≤ height, run.headerHash i ≠ Statedb.zeroHash) :
    run.BlockHashRight k height ↔ run.SlotsKept k height := by
  constructor
  · intro hright h hrange hpast
    obtain ⟨hanswer, hcode⟩ := hright _ (fun _ => rfl) h hrange hpast
    rw [getHashFn_eq hlt (fun _ => rfl) hpast] at hanswer hcode
    refine ⟨fun last hlast => ?_, fun hpos hdeployed hnone => ?_⟩
    · have hle := (lastWriter_spec hlast).2.1
      rw [hlast] at hanswer
      rcases hanswer with heq | heq
      · exact hinj last hle h hpast.le heq
      · exact absurd heq (hzero last hle)
    · have heq := hcode hpos hdeployed
      rw [hnone] at heq
      exact hzero h hpast.le heq.symm
  · intro hkept ctx hduring h hrange hpast
    obtain ⟨hlast, hsome⟩ := hkept h hrange hpast
    rw [getHashFn_eq hlt hduring hpast]
    cases hwriter : lastWriter (run.writes k) (ringKey (run.historyServeWindow height) h) height with
    | none => exact ⟨.inr rfl, fun hpos hdeployed => absurd hwriter (hsome hpos hdeployed)⟩
    | some last =>
      rw [hlast last hwriter]
      exact ⟨.inl rfl, fun _ _ => rfl⟩

end BlockRun

def emptyBlocks (historyServeWindow : ℕ → UInt64) : BlockRun (AuthLedger Evmd.moduleAccounts) where
  genesis := Keeper.setCodeHash (Evmd.genesisChain [(historyStorageAddress.bytes, [])])
    historyStorageAddress (bytesToHash [1])
  headerHash height := bytesToHash (bigEndian 8 (height + 1))
  historyServeWindow := historyServeWindow
  baseFee _ := none
  execute _ ctx := ctx
  genesis_storage _ := by simp [Keeper.setCodeHash, Keeper.withEvm, Evmd.genesisChain]
  execute_storage _ _ _ := rfl

theorem emptyBlocks_hadCode (historyServeWindow : ℕ → UInt64) (height : ℕ) :
    (emptyBlocks historyServeWindow).hadCode (Evmd.vmKeeper Evmd.sixDecimalsCoin) (height + 1) = true := by
  rw [BlockRun.hadCode]
  induction height with
  | zero =>
    change (Evmd.vmKeeper Evmd.sixDecimalsCoin).historyDeployed (Keeper.setCodeHash
      (Evmd.genesisChain [(historyStorageAddress.bytes, [])]) historyStorageAddress
      (bytesToHash [1])).store = true
    decide +kernel
  | succ height ih => exact (Keeper.historyDeployed_setHeaderHash _ _ _).trans ih

theorem blockHashRight_default_window :
    (emptyBlocks fun _ => 0).BlockHashRight (Evmd.vmKeeper Evmd.sixDecimalsCoin) 10000 := by
  have hkept : (emptyBlocks fun _ => 0).SlotsKept (Evmd.vmKeeper Evmd.sixDecimalsCoin) 10000 := by
    apply BlockRun.slotsKept_of_window (fun _ _ _ => rfl) (by decide)
    intro i _ _ _
    exact emptyBlocks_hadCode _ i
  have hhash : ∀ i ≤ 10000, ∀ j ≤ 10001,
      bytesToHash (bigEndian 8 (i + 1)) = bytesToHash (bigEndian 8 j) → i + 1 = j := by
    intro i hi j hj heq
    exact bigEndian_inj (by omega) (by omega) (bytesToHash_inj (by simp) (by simp) heq)
  refine (BlockRun.blockHashRight_iff (by norm_num) ?_ ?_).mpr hkept
  · intro i hi j hj heq
    exact Nat.succ.inj (hhash i hi (j + 1) (Nat.succ_le_succ hj) heq)
  · intro i hi heq
    exact absurd (hhash i hi 0 (Nat.zero_le _) heq) (Nat.succ_ne_zero i)

/-- Once governance sets the window to two, BLOCKHASH of the parent of block 4 is the hash of block 1. -/
theorem getHashFn_after_window_change :
    let k := Evmd.vmKeeper Evmd.sixDecimalsCoin
    let run := emptyBlocks fun height => if height < 4 then 0 else 2
    (∀ i, 0 < i → i ≤ 4 → run.hadCode k i = true) ∧
      Keeper.getHashFn (run.afterBeginBlock k 4).store (run.blockContext 4) 3 = run.headerHash 1 ∧
      run.headerHash 1 ≠ run.headerHash 3 ∧ run.headerHash 1 ≠ Statedb.zeroHash := by
  intro k run
  refine ⟨fun i hpos _ => ?_, by decide +kernel, by decide +kernel, by decide +kernel⟩
  obtain ⟨height, rfl⟩ := Nat.exists_eq_add_one_of_ne_zero hpos.ne'
  exact emptyBlocks_hadCode _ height

end CosmosEvm.Vm

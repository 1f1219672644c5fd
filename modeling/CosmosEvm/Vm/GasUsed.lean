import CosmosEvm.Evmd.Chain
import CosmosEvm.Vm.Message

namespace CosmosEvm.Vm

open Result Statedb

variable {σ : Type} {env : Env σ} {cfg : EvmConfig} {evm : Evm σ} {ctx ctx' : Context σ} {msg : Message}
  {commit internal : Bool} {txConfig : TxConfig} {result : ExecutionResult σ} {res : MsgEthereumTxResponse}

structure Settled (env : Env σ) (cfg : EvmConfig) (ctx : Context σ) (msg : Message)
    (commit internal : Bool) (result : ExecutionResult σ) (res : MsgEthereumTxResponse)
    (ctx' : Context σ) : Prop where
  leftoverGas_le : result.leftoverGas.toNat ≤ msg.gasLimit.toNat
  ctx_eq : committed env ctx commit result.stateDB = .ok ctx'
  gasUsed_eq : (res.gasUsed : ℤ) = (chargedGas (temporaryGasUsed cfg msg internal result)
    (minimumGasUsed msg.gasLimit cfg.minGasMultiplier) internal).truncateInt
  vmError_eq : res.vmError = result.vmErr

theorem settle_spec (hok : settle env cfg ctx msg commit internal result = .ok (res, ctx')) :
    Settled env cfg ctx msg commit internal result res ctx' := by
  unfold settle at hok
  obtain ⟨hle, hok⟩ := ite_error_eq_ok_iff.mp hok
  obtain ⟨committed, hctx, hok⟩ := bind_eq_ok_iff.mp hok
  obtain ⟨-, hok⟩ := ite_error_eq_ok_iff.mp hok
  obtain ⟨-, hok⟩ := ite_error_eq_ok_iff.mp hok
  obtain ⟨hrange, hok⟩ := ite_error_eq_ok_iff.mp hok
  cases hok
  refine ⟨?_, hctx, ?_, rfl⟩
  · exact not_lt.mp hle
  · apply Int.toNat_of_nonneg
    by_contra hneg
    exact hrange (.inl (not_le.mp hneg))

theorem applyMessageWithConfig_spec
    (hok : applyMessageWithConfig env cfg evm ctx msg commit internal txConfig = .ok (res, ctx')) :
    ∃ result, execution env cfg evm ctx msg txConfig = .ok result ∧
      Settled env cfg ctx msg commit internal result res ctx' := by
  obtain ⟨result, hexec, hsettle⟩ := bind_eq_ok_iff.mp hok
  exact ⟨result, hexec, settle_spec hsettle⟩

theorem truncateInt_minimumGasUsed (gasLimit : UInt64) (minGasMultiplier : Dec) :
    minimumGasUsed gasLimit minGasMultiplier = ⟨gasLimit.toNat * minGasMultiplier.raw⟩ :=
  Dec.ofInt_mul _ _

theorem Settled.gasUsed_eq_max (hsettled : Settled env cfg ctx msg commit false result res ctx') :
    (res.gasUsed : ℤ) = max (toInt64 (temporaryGasUsed cfg msg false result))
      (minimumGasUsed msg.gasLimit cfg.minGasMultiplier).truncateInt := by
  rw [hsettled.gasUsed_eq]
  unfold chargedGas
  simp only [Bool.false_eq_true, if_false]
  rw [Dec.truncateInt_max, Dec.truncateInt_ofInt]

theorem checkGasLimit_floor {gas : UInt64} (hprague : cfg.rules.isPrague = true)
    (hok : checkGasLimit cfg msg = .ok gas) :
    ∃ floor, floorDataGas msg.data = .ok floor ∧ floor ≤ msg.gasLimit.toNat := by
  obtain ⟨intrinsic, -, hok⟩ := bind_eq_ok_iff.mp hok
  obtain ⟨-, hok⟩ := ite_error_eq_ok_iff.mp hok
  rw [if_pos hprague] at hok
  obtain ⟨floor, hfloor, hok⟩ := bind_eq_ok_iff.mp hok
  obtain ⟨hle, -⟩ := ite_error_eq_ok_iff.mp hok
  exact ⟨floor, hfloor, not_lt.mp hle⟩

/-- The sender is charged the floor where the execution used that much after its refund, or the minimum
charge is that much, and only there. -/
theorem floorDataGas_le_gasUsed_iff (hprague : cfg.rules.isPrague = true)
    (hexec : execution env cfg evm ctx msg txConfig = .ok result)
    (hok : applyMessageWithConfig env cfg evm ctx msg commit false txConfig = .ok (res, ctx')) :
    ∃ floor, floorDataGas msg.data = .ok floor ∧ floor ≤ msg.gasLimit.toNat ∧
      (floor ≤ res.gasUsed ↔ (floor : ℤ) ≤ toInt64 (temporaryGasUsed cfg msg false result) ∨
        (floor : ℤ) ≤ (minimumGasUsed msg.gasLimit cfg.minGasMultiplier).truncateInt) := by
  obtain ⟨result', hexec', hsettled⟩ := applyMessageWithConfig_spec hok
  rw [hexec] at hexec'
  cases hexec'
  obtain ⟨gas, hgas, -⟩ := bind_eq_ok_iff.mp hexec
  obtain ⟨floor, hfloor, hle⟩ := checkGasLimit_floor hprague hgas
  refine ⟨floor, hfloor, hle, ?_⟩
  rw [← Int.ofNat_le, hsettled.gasUsed_eq_max, le_max_iff]

def idleEvm (σ : Type) : Evm σ where
  create s _ _ gas _ := .ok ⟨[], gas, none, s⟩
  call s _ _ _ gas _ := .ok ⟨[], gas, none, s⟩
  activePrecompiles := []

def pragueConfig : EvmConfig where
  rules := ⟨true, true, true, true, true, true, false⟩
  chainID := 9001
  minGasMultiplier := ⟨5 * 10 ^ 17⟩
  authority auth := some (bytesToAddress auth.signature)

def calldataMessage (bytes : ℕ) (gasLimit : UInt64) : Message where
  sender := bytesToAddress [0xa1]
  recipient := some (bytesToAddress [0xb0])
  nonce := 0
  value := 0
  gasLimit := gasLimit
  gasPrice := 0
  gasFeeCap := 0
  gasTipCap := 0
  data := List.replicate bytes 1
  accessList := []
  setCodeAuthorizations := []

def applyCalldata (bytes : ℕ) (gasLimit : UInt64) :
    Except Err (MsgEthereumTxResponse × Ctx (AuthLedger Evmd.moduleAccounts)) :=
  applyMessageWithConfig ((Evmd.vmKeeper Evmd.sixDecimalsCoin).env fun _ => "") pragueConfig (idleEvm _)
    (Evmd.genesisChain []) (calldataMessage bytes gasLimit) true false ⟨zeroHash, zeroHash, 0, 0⟩

theorem floorDataGas_le_gasUsed_transfer : ∃ res ctx' floor, applyCalldata 0 21000 = .ok (res, ctx') ∧
    floorDataGas (calldataMessage 0 21000).data = .ok floor ∧ floor ≤ res.gasUsed := by
  have hused : (execution ((Evmd.vmKeeper Evmd.sixDecimalsCoin).env fun _ => "") pragueConfig (idleEvm _)
      (Evmd.genesisChain []) (calldataMessage 0 21000) ⟨zeroHash, zeroHash, 0, 0⟩).toOption.map
      (temporaryGasUsed pragueConfig (calldataMessage 0 21000) false) = some 21000 := by
    decide +kernel
  obtain ⟨result, hresult, hused⟩ := Option.map_eq_some_iff.mp hused
  have hsome : (applyCalldata 0 21000).toOption.isSome = true := by decide +kernel
  obtain ⟨⟨res, ctx'⟩, hok⟩ := exists_eq_ok_of_isSome hsome
  obtain ⟨floor, hfloor, hle, hiff⟩ := floorDataGas_le_gasUsed_iff rfl
    (toOption_eq_some_iff.mp hresult) hok
  refine ⟨res, ctx', floor, hok, hfloor, hiff.mpr (.inl ?_)⟩
  rw [hused]
  exact Int.ofNat_le.mpr hle

/-- A hundred bytes to an account without code: the floor is 25000, and 22600 are charged. -/
theorem gasUsed_below_floor :
    (applyCalldata 100 25000).toOption.map (fun result => result.1.gasUsed) = some 22600 ∧
      (floorDataGas (calldataMessage 100 25000).data).toOption = some 25000 := by
  constructor <;> decide +kernel

end CosmosEvm.Vm

import CosmosEvm.SnapshotStore.Branch
import CosmosEvm.Vm.Faithful
import CosmosEvm.Vm.Seen
import CosmosEvm.Vm.HeaderHash
import CosmosEvm.Vm.NestedMessages
import CosmosEvm.Vm.Deliveries
import CosmosEvm.FeeMarket.Liveness
import CosmosEvm.Erc20.Conformance
import CosmosEvm.Ibc.CallbackLaw
import CosmosEvm.Ante.AuthzLimiter
import CosmosEvm.Ante.DynamicFee
import CosmosEvm.Mempool.Admission
import CosmosEvm.Vm.Permissions
import CosmosEvm.Rpc.EstimateSound
import CosmosEvm.Rpc.FeeHistoryRuns
import CosmosEvm.Mempool.HeadOrder
import CosmosEvm.Erc20.Disabled
import CosmosEvm.Ibc.TransferLaw
import CosmosEvm.Precompiles.OwnGas
import CosmosEvm.PreciseBank.NoPanic
import CosmosEvm.PreciseBank.PlainBank
import CosmosEvm.PreciseBank.Genesis
import CosmosEvm.Vm.StorageRoot
import CosmosEvm.Vm.BlockLogs
import CosmosEvm.Rpc.Filters
import CosmosEvm.Rpc.StreamWait
import CosmosEvm.Precompiles.SharedHandler
import CosmosEvm.Erc20.ApprovalEvents
import CosmosEvm.Mempool.Tips

import CosmosEvm.Lib.Bloom
import CosmosEvm.Statedb.Journal

namespace CosmosEvm.Vm

open Statedb

variable (keccak256 : Bytes → Hash)

/-- go-ethereum's `bloomValues`: three of 2048 bits, each from two bytes of the hash. -/
def bloomBits (data : Bytes) : List ℕ :=
  let hash := (keccak256 data).bytes
  [0, 2, 4].map fun i => ((hash.getD i 0).val * 256 + (hash.getD (i + 1) 0).val) % 2048

def bloomItems (log : Log) : List Bytes := log.address.bytes :: log.topics.map (·.bytes)

def createBloom (logs : List Log) : ℕ :=
  Bloom.ofItems (bloomBits keccak256) (logs.flatMap bloomItems)

/-- `ethtypes.BytesToBloom`, which panics where the bytes are too many. -/
def bytesToBloom (bloom : ℕ) : Option ℕ := if bloom < 2 ^ 2048 then some bloom else none

theorem createBloom_append (logs more : List Log) :
    createBloom keccak256 (logs ++ more) = createBloom keccak256 logs ||| createBloom keccak256 more := by
  unfold createBloom
  rw [List.flatMap_append, Bloom.ofItems_append]

theorem createBloom_lt (logs : List Log) : createBloom keccak256 logs < 2 ^ 2048 := by
  refine Bloom.ofItems_lt (fun data bit hbit => ?_) _
  obtain ⟨i, -, rfl⟩ := List.mem_map.mp hbit
  exact Nat.mod_lt _ (by decide)

end CosmosEvm.Vm

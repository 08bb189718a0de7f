import UpgradeSafety.Numeral

/-!
# Networks

The chains that have a name of their own, and all others by their chain id.
-/

namespace UpgradeSafety

inductive Network where
  | mainnet
  | ropsten
  | rinkeby
  | goerli
  | kovan
  | sepolia
  | holesky
  | unknown (chainId : Nat)
  deriving DecidableEq, Repr

namespace Network

def ofChainId (chainId : Nat) : Network :=
  match chainId with
  | 1 => .mainnet
  | 3 => .ropsten
  | 4 => .rinkeby
  | 5 => .goerli
  | 42 => .kovan
  | 11155111 => .sepolia
  | 17000 => .holesky
  | other => .unknown other

def chainId : Network → Nat
  | .mainnet => 1
  | .ropsten => 3
  | .rinkeby => 4
  | .goerli => 5
  | .kovan => 42
  | .sepolia => 11155111
  | .holesky => 17000
  | .unknown id => id

def isKnown : Network → Bool
  | .unknown _ => false
  | _ => true

/-- The name under which a network keeps its records. -/
def name : Network → String
  | .mainnet => "mainnet"
  | .ropsten => "ropsten"
  | .rinkeby => "rinkeby"
  | .goerli => "goerli"
  | .kovan => "kovan"
  | .sepolia => "sepolia"
  | .holesky => "holesky"
  | .unknown id => "unknown-" ++ Numeral.write id

end Network

end UpgradeSafety

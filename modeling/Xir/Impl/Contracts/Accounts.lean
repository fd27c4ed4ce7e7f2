import Xir.Impl.Contracts.XIRGateway

/-!
# The accounts that `deliver` calls

`receiver.call` is a low-level call: it does not look whether the account has
code. To one without, it transfers nothing, runs nothing and succeeds. The
addresses of precompiled functions are left out.
-/

namespace Xir.Impl

variable [Keccak]

/-- What stands at an address: a contract, with what its code makes of the gateway, which it
may call back, or that it reverts; or an account without code. -/
inductive Account
  | contract (xirReceive : XIRGateway → Bytes32 → Bytes → Option XIRGateway)
  | codeless

/-- A low-level call of `xirReceive`. -/
def Account.call : Account → XIRGateway → Bytes32 → Bytes → Option XIRGateway
  | contract xirReceive, gateway, mid, payload => xirReceive gateway mid payload
  | codeless, gateway, _, _ => some gateway

/-- `deliver`, on a chain with these accounts. -/
def XIRGateway.deliverTo (gateway : XIRGateway) (env : Env) (accounts : Address → Account) (envelope : Envelope)
    (payload : Bytes) (receiver : Address) : Except Revert (XIRGateway × Bytes32 × Delivered) :=
  gateway.deliver env envelope payload receiver (accounts receiver).call

end Xir.Impl

import Xir.Impl.Contracts.XIRTypes

/-!
# `OutboundControl.sol`

The state that the adapters inherit. A modifier is a check of the sender or of the state.
-/

namespace Xir.Impl

structure OutboundControl where
  administrator : Address
  pendingAdministrator : Address
  runner : Address
  outboundPaused : Bool
  draining : Bool
  deriving DecidableEq

namespace OutboundControl

/-- The constructor. -/
def new (administrator runner : Address) : Except Revert OutboundControl := do
  revertIf (administrator = 0 ∨ runner = 0) .invalidControlAddress
  return ⟨administrator, 0, runner, false, false⟩

def onlyAdministrator (c : OutboundControl) (sender : Address) : Except Revert Unit :=
  revertIf (sender ≠ c.administrator) .onlyAdministrator

def onlyRunner (c : OutboundControl) (sender : Address) : Except Revert Unit :=
  revertIf (sender ≠ c.runner) .onlyRunner

def whenOutboundActive (c : OutboundControl) : Except Revert Unit :=
  revertIf c.outboundPaused .outboundPaused

def whenSourceStartAllowed (c : OutboundControl) : Except Revert Unit := do
  revertIf c.outboundPaused .outboundPaused
  revertIf c.draining .sourceDraining

def proposeAdministrator (c : OutboundControl) (sender pendingAdministrator : Address) :
    Except Revert OutboundControl := do
  c.onlyAdministrator sender
  revertIf (pendingAdministrator = 0) .invalidControlAddress
  return { c with pendingAdministrator := pendingAdministrator }

def acceptAdministrator (c : OutboundControl) (sender : Address) : Except Revert OutboundControl := do
  revertIf (sender ≠ c.pendingAdministrator) .onlyPendingAdministrator
  return { c with administrator := sender, pendingAdministrator := 0 }

def setRunner (c : OutboundControl) (sender runner : Address) : Except Revert OutboundControl := do
  c.onlyAdministrator sender
  revertIf (runner = 0) .invalidControlAddress
  return { c with runner := runner }

def setOutboundPaused (c : OutboundControl) (sender : Address) (paused : Bool) : Except Revert OutboundControl := do
  c.onlyAdministrator sender
  return { c with outboundPaused := paused }

/-- Drain blocks new source attempts but does not recall or block
already in-flight carrier work. Emergency pause blocks every new send. -/
def setDrain (c : OutboundControl) (sender : Address) (draining : Bool) : Except Revert OutboundControl := do
  c.onlyAdministrator sender
  return { c with draining := draining }

end OutboundControl

end Xir.Impl

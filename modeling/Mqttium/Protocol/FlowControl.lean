import Mathlib.Data.Finset.Card
import Mqttium.Errors

/-! The outbound QoS 1/2 inflight window. A slot is owned by the packet
identifier whose PUBLISH it admitted on this connection, so a release by an
exchange that owns none frees nothing. -/

namespace Mqttium.Protocol

structure FlowControl where
  limit : Nat
  holders : Finset Nat := ∅
  limit_pos : 1 ≤ limit

namespace FlowControl

/-- `FlowControl(limit)`. -/
def ofLimit (limit : Nat) : FlowControl where
  limit := max 1 limit
  limit_pos := Nat.le_max_left _ _

def inflight (flow : FlowControl) : Nat := flow.holders.card

def available (flow : FlowControl) : Nat := flow.limit - flow.holders.card

/-- Take a slot for `mid`; `none` when the window is full. Taking one twice is an
accounting failure. -/
def tryAcquire (flow : FlowControl) (mid : Nat) : Except Failure (Option FlowControl) :=
  if flow.limit ≤ flow.holders.card then .ok none
  else if mid ∈ flow.holders then .error .assertion
  else .ok (some { flow with holders := insert mid flow.holders })

def release (flow : FlowControl) (mid : Nat) : FlowControl :=
  { flow with holders := flow.holders.erase mid }

def reset (flow : FlowControl) : FlowControl := { flow with holders := ∅ }

/-- The window of a connection: the broker's Receive Maximum, under an optional local cap. -/
def brokerLimit (receiveMaximum : Nat) (localOutbound : Option Nat) : Nat :=
  match localOutbound with
  | none => max 1 receiveMaximum
  | some cap => max 1 (min (max 1 receiveMaximum) cap)

def applyBrokerReceiveMaximum (flow : FlowControl) (receiveMaximum : Nat)
    (localOutbound : Option Nat) : FlowControl where
  limit := brokerLimit receiveMaximum localOutbound
  holders := flow.holders
  limit_pos := by unfold brokerLimit; split <;> exact Nat.le_max_left _ _

end FlowControl

end Mqttium.Protocol

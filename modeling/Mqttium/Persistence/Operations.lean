import Mqttium.Persistence.Store

/-! The calls of the store contract and what they return, whichever backend
answers. -/

namespace Mqttium.Persistence

open Library

/-- A page listing is one that is read to its end. -/
inductive Operation where
  | putOut (message : OutboundMessage)
  | getOut (mid : Nat)
  | deleteOut (mid : Nat)
  | outSummaryPages (pageSize : Int)
  | outMeta (mid : Nat)
  | completeOut (mid : Nat) (expected : OutboundQoSState)
  | transitionOut (mid : Nat) (expected next : OutboundQoSState) (compact : Bool)
  | clearOut
  | putIn (message : InboundMessage)
  | getIn (mid : Nat)
  | inCount
  | inReplayPages (maxMessages maxBytes : Int)
  | inMeta (mid : Nat)
  | inIndexPages (pageSize : Int)
  | markInDelivered (mid : Nat)
  | transitionIn (mid : Nat) (expected next : InboundQoSState) (userAcked : Option Bool)
  | completeIn (mid : Nat) (expected : InboundQoSState)
  | clearIn

inductive Response where
  | none
  | flag (value : Bool)
  | count (value : Nat)
  | outMessage (message : Option OutboundMessage)
  | outMeta (found : Option OutboundRecordMeta)
  | outSummaries (pages : List (List OutboundMessageSummary))
  | inMessage (message : Option InboundMessage)
  | inMeta (found : Option InboundRecordMeta)
  | inMessages (pages : List (List InboundMessage))
  | inMetas (pages : List (List InboundRecordMeta))
  deriving DecidableEq, Repr

/-- An empty table reads as none. -/
def canonicalProperties (properties : Option Properties) : Option Properties :=
  if hasProperties properties then properties else none

/-- A record without the encodings a backend may cache on it. -/
def canonicalOut (message : OutboundMessage) : OutboundMessage :=
  { message with
    properties := canonicalProperties message.properties
    encodedPublish := none
    encodedPubrel := none }

def canonicalIn (message : InboundMessage) : InboundMessage :=
  { message with properties := canonicalProperties message.properties }

def canonicalSummary (summary : OutboundMessageSummary) : OutboundMessageSummary :=
  { summary with properties := canonicalProperties summary.properties }

def Response.canonical : Response → Response
  | .outMessage message => .outMessage (message.map canonicalOut)
  | .outSummaries pages => .outSummaries (pages.map (List.map canonicalSummary))
  | .inMessage message => .inMessage (message.map canonicalIn)
  | .inMessages pages => .inMessages (pages.map (List.map canonicalIn))
  | response => response

/-- The responses of a sequence of calls, and the backend after them. -/
def answers {Backend : Type} (perform : Operation → EStateM Failure Backend Response)
    (backend : Backend) : List Operation → List (Except Failure Response) × Backend
  | [] => ([], backend)
  | operation :: rest =>
    match perform operation backend with
    | .ok response after =>
      let (responses, final) := answers perform after rest
      (.ok response.canonical :: responses, final)
    | .error failure after =>
      let (responses, final) := answers perform after rest
      (.error failure :: responses, final)

def invalidPageSize : Failure := .value "page_size must be positive"

def invalidLogicalSize : Failure := .value "logical_size must be positive"

/-- The limits of `in_replay_pages` are checked in this order. -/
def checkReplayLimits (maxMessages maxBytes : Int) : Except Failure PUnit :=
  if maxMessages ≤ 0 then .error (.value "max_messages must be positive")
  else if maxBytes ≤ 0 then .error (.value "max_bytes must be positive")
  else .ok ⟨⟩

end Mqttium.Persistence

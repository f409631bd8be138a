import Mqttium.Topics

/-! Topic-filter matching for callback dispatch. Exact filters are indexed by topic
name; wildcard filters live in a prefix tree keyed by filter level. -/

namespace Mqttium.Dispatch

open Codec Library

def dollar : CodePoint := 36

/-- One filter level. `entries` names the filters that end here by their sequence
numbers, which no two entries share. -/
structure Node where
  children : List (Text × Node) := []
  plus : Option Node := none
  hash : Option Node := none
  wild : Bool := false
  entries : Option (List Nat) := none

namespace Node

def child (node : Node) (level : Text) : Option Node :=
  if level = [Codec.plus] then node.plus
  else if level = [Codec.hash] then node.hash
  else node.children.lookup level

/-- Attach the child of a level that has none. -/
def addChild (node : Node) (level : Text) (child : Node) : Node :=
  if level = [Codec.plus] then { node with plus := some child, wild := true }
  else if level = [Codec.hash] then { node with hash := some child, wild := true }
  else { node with children := node.children ++ [(level, child)] }

/-- Write back a child that was changed in place. -/
def replaceChild (node : Node) (level : Text) (child : Node) : Node :=
  if level = [Codec.plus] then { node with plus := some child }
  else if level = [Codec.hash] then { node with hash := some child }
  else
    { node with
      children := node.children.map fun entry => if entry.1 = level then (level, child) else entry }

def removeChild (node : Node) (level : Text) : Node :=
  let node :=
    if level = [Codec.plus] then { node with plus := none }
    else if level = [Codec.hash] then { node with hash := none }
    else { node with children := node.children.filter fun entry => entry.1 ≠ level }
  { node with wild := node.plus.isSome || node.hash.isSome }

def isEmpty (node : Node) : Bool := node.entries.isNone && node.children.isEmpty && !node.wild

/-- Nothing hangs below the node. -/
def isLeaf (node : Node) : Bool :=
  node.children.isEmpty && node.plus.isNone && node.hash.isNone

/-- Follow the levels, adding the nodes that are missing, and append the entry. -/
def register : List Text → Nat → Node → Node
  | [], sequence, node => { node with entries := some (node.entries.getD [] ++ [sequence]) }
  | level :: rest, sequence, node =>
    match node.child level with
    | some child => node.replaceChild level (register rest sequence child)
    | none => node.addChild level (register rest sequence {})

/-- Remove the entry and prune the branch it alone kept alive; the flag says whether
pruning goes on above the node. `none` where an assertion fails. -/
def unregister : List Text → Nat → Node → Option (Node × Bool)
  | [], sequence, node => do
    let entries ← node.entries
    let left := entries.erase sequence
    return ({ node with entries := if left = [] then none else some left }, true)
  | level :: rest, sequence, node => do
    let child ← node.child level
    let (child, pruning) ← unregister rest sequence child
    if pruning && child.isEmpty then return (node.removeChild level, true)
    else return (node.replaceChild level child, false)

def ending (node : Node) : List Nat := node.entries.getD []

/-- The entries of the `#` child. -/
def hashEntries (node : Node) : List Nat := node.hash.elim [] ending

/-- Follow the literal branch; only `+` branches wait on the stack. The levels are those
behind the source's index. -/
def descend : List Text → Option Node → List Nat → List (Node × List Text) →
    List Nat × List (Node × List Text)
  | _, none, candidates, pending => (candidates, pending)
  | [], some node, candidates, pending =>
    if node.wild then (candidates ++ node.hashEntries ++ node.ending, pending)
    else (candidates ++ node.ending, pending)
  | level :: rest, some node, candidates, pending =>
    if node.wild then
      match node.plus with
      | some plus =>
        descend rest (node.children.lookup level) (candidates ++ node.hashEntries)
          ((plus, rest) :: pending)
      | none => descend rest (node.children.lookup level) (candidates ++ node.hashEntries) pending
    else descend rest (node.children.lookup level) candidates pending

/-- The work that the stack still stands for. -/
def weight (pending : List (Node × List Text)) : Nat :=
  (pending.map fun waiting => 2 ^ waiting.2.length).sum

theorem weight_descend (levels : List Text) (node : Option Node) (candidates : List Nat)
    (pending : List (Node × List Text)) :
    weight (descend levels node candidates pending).2 < weight pending + 2 ^ levels.length := by
  induction levels generalizing node candidates pending with
  | nil =>
    cases node with
    | none => simp [descend]
    | some node =>
      unfold descend
      split <;> simp
  | cons level rest ih =>
    cases node with
    | none => simp [descend]
    | some node =>
      have positive := Nat.two_pow_pos rest.length
      have double : 2 ^ (level :: rest).length = 2 ^ rest.length + 2 ^ rest.length := by
        rw [List.length_cons, Nat.pow_succ]
        omega
      unfold descend
      rw [double]
      split
      · split
        · next plus _ =>
          have smaller := ih (node.children.lookup level) (candidates ++ node.hashEntries)
            ((plus, rest) :: pending)
          simp only [weight, List.map_cons, List.sum_cons] at smaller ⊢
          omega
        · have smaller := ih (node.children.lookup level) (candidates ++ node.hashEntries) pending
          omega
      · have smaller := ih (node.children.lookup level) candidates pending
        omega

/-- Take the branches that wait, last one first. -/
def walk (pending : List (Node × List Text)) (candidates : List Nat) : List Nat :=
  match pending with
  | [] => candidates
  | (node, levels) :: pending =>
    let step := descend levels (some node) candidates pending
    walk step.2 step.1
termination_by weight pending
decreasing_by
  have smaller := weight_descend levels (some node) candidates pending
  simp only [weight, List.map_cons, List.sum_cons] at smaller ⊢
  omega

end Node

/-- One registered filter: its wildcard levels, if it is in the tree, and its value. -/
structure Entry (Value : Type) where
  levels : Option (List Text)
  value : Value

inductive MatcherError where
  | key (topicFilter : Text)
  | index
  | assertion
  deriving DecidableEq, Repr

/-- `cells` holds the entry objects under their sequence numbers; the index and the tree
name them by these. -/
structure TopicMatcher (Value : Type) where
  cells : Dict Nat (Entry Value) := .empty
  entries : Dict Text Nat := .empty
  root : Option Node := none
  nextSequence : Nat := 0

/-- The text behind the first slash. -/
def behindSlash (text : Text) : Option Text :=
  match text.dropWhile (· ≠ slash) with
  | [] => none
  | _ :: rest => some rest

/-- `none` where the subscript is out of range. -/
def compile (topicFilter : Text) : Option (Option (List Text)) :=
  if sharePrefix.isPrefixOf topicFilter then do
    let inner ← (behindSlash topicFilter).bind behindSlash
    return some (splitLevels inner)
  else
    let levels := splitLevels topicFilter
    some (if levels.any fun level => level = [plus] || level = [hash] then some levels else none)

namespace TopicMatcher

variable {Value : Type}

def valueOf (matcher : TopicMatcher Value) (sequence : Nat) : Option Value :=
  (matcher.cells.get? sequence).map Entry.value

def setItem (matcher : TopicMatcher Value) (topicFilter : Text) (value : Value) :
    Except MatcherError (TopicMatcher Value) :=
  match matcher.entries.get? topicFilter with
  | some sequence =>
    .ok { matcher with cells := matcher.cells.modify sequence fun entry => { entry with value } }
  | none =>
    match compile topicFilter with
    | none => .error .index
    | some levels =>
      let sequence := matcher.nextSequence
      .ok {
        cells := matcher.cells.insert sequence { levels, value }
        entries := matcher.entries.insert topicFilter sequence
        root := match levels with
          | none => matcher.root
          | some levels => some ((matcher.root.getD {}).register levels sequence)
        nextSequence := sequence + 1 }

def getItem (matcher : TopicMatcher Value) (topicFilter : Text) : Except MatcherError Value :=
  match (matcher.entries.get? topicFilter).bind matcher.valueOf with
  | some value => .ok value
  | none => .error (.key topicFilter)

def delItem (matcher : TopicMatcher Value) (topicFilter : Text) :
    Except MatcherError (TopicMatcher Value) :=
  match matcher.entries.get? topicFilter with
  | none => .error (.key topicFilter)
  | some sequence =>
    let entries := matcher.entries.erase topicFilter
    match (matcher.cells.get? sequence).bind Entry.levels with
    | none => .ok { matcher with entries }
    | some levels =>
      match matcher.root.bind (Node.unregister levels sequence) with
      | none => .error .assertion
      | some (root, _) =>
        .ok { matcher with entries, root := if root.isEmpty then none else some root }

/-- Registered filters and values in registration order. -/
def items (matcher : TopicMatcher Value) : List (Text × Value) :=
  matcher.entries.entries.filterMap fun entry => (matcher.valueOf entry.2).map fun value =>
    (entry.1, value)

/-- The entry of an exact filter spelled like the topic. -/
def exactEntry (matcher : TopicMatcher Value) (topic : Text) : List Nat :=
  match matcher.entries.get? topic with
  | none => []
  | some sequence =>
    if ((matcher.cells.get? sequence).bind Entry.levels).isNone then [sequence] else []

/-- The tree's candidates behind those already found. -/
def collect (root : Node) (topic : Text) (candidates : List Nat) : List Nat :=
  let levels := splitLevels topic
  let step :=
    if topic.head? = some dollar then
      -- Wildcards at the first level never match a topic beginning with "$".
      Node.descend levels.tail (root.children.lookup (levels.headD [])) candidates []
    else Node.descend levels (some root) candidates []
  Node.walk step.2 step.1

/-- Values whose filters match the topic, in insertion order. -/
def iterMatch (matcher : TopicMatcher Value) (topic : Text) : List Value :=
  match matcher.root with
  | none => (matcher.exactEntry topic).filterMap matcher.valueOf
  | some root =>
    let candidates := collect root topic (matcher.exactEntry topic)
    let sorted := if 1 < candidates.length then candidates.mergeSort else candidates
    sorted.filterMap matcher.valueOf

end TopicMatcher

end Mqttium.Dispatch

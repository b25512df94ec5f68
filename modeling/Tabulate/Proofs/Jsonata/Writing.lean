import Tabulate.Jsonata.Parser
import Tabulate.Proofs.Token.Spelling

/-! How expression trees are written. An operand needs parentheses only where its operator binds less
tightly than its place asks. -/
namespace Tabulate.Jsonata

mutual

/-- A tree without the offsets that its errors report. -/
def Node.unplaced : Node → Node
  | .path left right => .path left.unplaced right.unplaced
  | .filter left predicate => .filter left.unplaced predicate.unplaced
  | .toArray left => .toArray left.unplaced
  | .binary op left right _ => .binary op left.unplaced right.unplaced 0
  | .negate operand _ => .negate operand.unplaced 0
  | .condition test yes none => .condition test.unplaced yes.unplaced none
  | .condition test yes (some no) => .condition test.unplaced yes.unplaced (some no.unplaced)
  | .array items => .array (unplacedItems items)
  | .object entries => .object (unplacedEntries entries)
  | .called name args _ => .called name (unplacedItems args) 0
  | node => node

def unplacedItems : List Node → List Node
  | [] => []
  | item :: items => item.unplaced :: unplacedItems items

def unplacedEntries : List (Node × Node) → List (Node × Node)
  | [] => []
  | (key, value) :: entries => (key.unplaced, value.unplaced) :: unplacedEntries entries

end

inductive IsAtom : Node → Token → Prop
  | null : IsAtom (.literal .null) (.ident "null")
  | true : IsAtom (.literal (.bool true)) (.ident "true")
  | false : IsAtom (.literal (.bool false)) (.ident "false")
  | natural (n : Nat) : IsAtom (.literal (.number (.ofNat n))) (.number (.ofNat n))
  | quoted (text : String) : IsAtom (.literal (.string text)) (.quoted text)
  | singleQuoted (text : String) : IsAtom (.literal (.string text)) (.singleQuoted text)
  | context : IsAtom .context (.dollar "")
  | root : IsAtom .root (.dollar "$")
  | field (name : String) : IsAtom (.field name) (.backtick name)
  | wildcard : IsAtom .wildcard (.symbol "*")

mutual

/-- The tokens of a tree at a place that asks for a power. What an operator takes on either side is at
the place of its power, on the right at the next one if it takes the left side first. -/
inductive Writes : Nat → Node → List Token → Prop
  | atom {place node token} (atom : IsAtom node token) : Writes place node [token]
  | path {place left right before after} (bare : place ≤ pathPower)
      (writesLeft : Writes pathPower left before) (writesRight : Writes (pathPower + 1) right after) :
      Writes place (.path left right) (before ++ .symbol "." :: after)
  | filter {place left predicate before inner} (bare : place ≤ predicatePower)
      (writesLeft : Writes predicatePower left before) (writesInner : Writes 0 predicate inner) :
      Writes place (.filter left predicate) (before ++ .symbol "[" :: (inner ++ [.symbol "]"]))
  | toArray {place left before} (bare : place ≤ predicatePower)
      (writesLeft : Writes predicatePower left before) :
      Writes place (.toArray left) (before ++ [.symbol "[", .symbol "]"])
  | binary {place} (op : BinaryOp) {left right position token before after} (bare : place ≤ op.power)
      (isOp : BinaryOp.ofToken? token = some op) (writesLeft : Writes op.power left before)
      (writesRight : Writes (op.power + 1) right after) :
      Writes place (.binary op left right position) (before ++ token :: after)
  | negate {place operand position after} (bare : place < pathPower)
      (writesOperand : Writes pathPower operand after) :
      Writes place (.negate operand position) (.symbol "-" :: after)
  | whether {test yes before after} (writesTest : Writes conditionPower test before)
      (writesYes : Writes conditionPower yes after) :
      Writes 0 (.condition test yes none) (before ++ .symbol "?" :: after)
  | choice {test yes no before between after} (writesTest : Writes conditionPower test before)
      (writesYes : Writes conditionPower yes between) (writesNo : Writes conditionPower no after) :
      Writes 0 (.condition test yes (some no)) (before ++ .symbol "?" :: (between ++ .symbol ":" :: after))
  | array {place items inner} (writesItems : WritesItems items inner) :
      Writes place (.array items) (.symbol "[" :: (inner ++ [.symbol "]"]))
  | object {place entries inner} (writesEntries : WritesEntries entries inner) :
      Writes place (.object entries) (.symbol "\x7b" :: (inner ++ [.symbol "\x7d"]))
  | call {place function args position inner} (writesArgs : WritesItems args inner) :
      Writes place (.call function args position)
        (.dollar function.name :: .symbol "(" :: (inner ++ [.symbol ")"]))
  | parentheses {place node inner} (writes : Writes 0 node inner) :
      Writes place node (.symbol "(" :: (inner ++ [.symbol ")"]))

inductive WritesItems : List Node → List Token → Prop
  | nil : WritesItems [] []
  | last {item tokens} (writes : Writes 0 item tokens) : WritesItems [item] tokens
  | more {item next items tokens rest} (writes : Writes 0 item tokens)
      (writesMore : WritesItems (next :: items) rest) :
      WritesItems (item :: next :: items) (tokens ++ .symbol "," :: rest)

inductive WritesEntries : List (Node × Node) → List Token → Prop
  | nil : WritesEntries [] []
  | last {key value before after} (writesKey : Writes conditionPower key before)
      (writesValue : Writes 0 value after) :
      WritesEntries [(key, value)] (before ++ .symbol ":" :: after)
  | more {key value next entries before after rest} (writesKey : Writes conditionPower key before)
      (writesValue : Writes 0 value after) (writesMore : WritesEntries (next :: entries) rest) :
      WritesEntries ((key, value) :: next :: entries)
        (before ++ .symbol ":" :: (after ++ .symbol "," :: rest))

end

/-- The trees whose values are null, truth values, texts and natural numbers. -/
inductive Node.IsPlain : Node → Prop
  | atom {node token} (atom : IsAtom node token) : IsPlain node
  | path {left right} : IsPlain left → IsPlain right → IsPlain (.path left right)
  | filter {left predicate} : IsPlain left → IsPlain predicate → IsPlain (.filter left predicate)
  | toArray {left} : IsPlain left → IsPlain (.toArray left)
  | binary {op left right position} : IsPlain left → IsPlain right → IsPlain (.binary op left right position)
  | negate {operand position} : IsPlain operand → IsPlain (.negate operand position)
  | whether {test yes} : IsPlain test → IsPlain yes → IsPlain (.condition test yes none)
  | choice {test yes no} : IsPlain test → IsPlain yes → IsPlain no → IsPlain (.condition test yes (some no))
  | array {items} : (∀ item ∈ items, IsPlain item) → IsPlain (.array items)
  | object {entries} : (∀ entry ∈ entries, IsPlain entry.1) → (∀ entry ∈ entries, IsPlain entry.2) →
      IsPlain (.object entries)
  | call {function args position} : (∀ arg ∈ args, IsPlain arg) → IsPlain (.call function args position)

open Token (HasSpelling Spelled)

section Tokens

def BinaryOp.token : BinaryOp → Token
  | add => .symbol "+"
  | sub => .symbol "-"
  | mul => .symbol "*"
  | div => .symbol "/"
  | mod => .symbol "%"
  | concat => .symbol "&"
  | eq => .symbol "="
  | ne => .symbol "!="
  | lt => .symbol "<"
  | le => .symbol "<="
  | gt => .symbol ">"
  | ge => .symbol ">="
  | and => .ident "and"
  | or => .ident "or"
  | isIn => .ident "in"

theorem BinaryOp.ofToken?_token (op : BinaryOp) : BinaryOp.ofToken? op.token = some op := by
  cases op <;> rfl

private theorem hasSpelling_token (op : BinaryOp) : HasSpelling false op.token := by
  cases op with
  | and | or | isIn => exact Token.hasSpelling_ident (by decide)
  | _ => exact Token.hasSpelling_symbol (by decide)

private theorem hasSpelling_function (function : Function) : HasSpelling false (.dollar function.name) := by
  apply Token.hasSpelling_dollarName
  cases function <;> decide

private theorem hasSpelling_atom {node : Node} {token : Token} (h : IsAtom node token) :
    HasSpelling false token := by
  cases h with
  | null | true | false => exact Token.hasSpelling_ident (by decide)
  | natural n => exact Token.hasSpelling_natural n
  | quoted text => exact Token.hasSpelling_quoted text
  | singleQuoted text => exact Token.hasSpelling_singleQuoted text
  | context => exact Token.hasSpelling_dollar
  | root => exact Token.hasSpelling_dollars
  | field name => exact Token.hasSpelling_backtick name
  | wildcard => exact Token.hasSpelling_symbol (by decide)

end Tokens

section Existence
variable {node : Node}

def Node.IsWritable (place : Nat) (node : Node) : Prop :=
  ∃ tokens, Spelled false tokens ∧ Writes place node tokens

private theorem isWritable_parentheses (h : node.IsWritable 0) (place : Nat) : node.IsWritable place := by
  obtain ⟨tokens, spelled, writes⟩ := h
  exact ⟨_, spelled.between (by decide) (by decide), .parentheses writes⟩

private theorem exists_writesItems {items : List Node} (h : ∀ item ∈ items, item.IsWritable 0) :
    ∃ tokens, Spelled false tokens ∧ WritesItems items tokens := by
  induction items with
  | nil => exact ⟨[], .nil, .nil⟩
  | cons item items ih =>
    obtain ⟨⟨tokens, spelled, writes⟩, hitems⟩ := List.forall_mem_cons.mp h
    obtain ⟨more, spelledMore, writesMore⟩ := ih hitems
    cases items with
    | nil => exact ⟨tokens, spelled, .last writes⟩
    | cons next items =>
      exact ⟨_, spelled.append (spelledMore.mark (by decide)), .more writes writesMore⟩

private theorem exists_writesEntries {entries : List (Node × Node)}
    (hkey : ∀ entry ∈ entries, entry.1.IsWritable conditionPower)
    (hvalue : ∀ entry ∈ entries, entry.2.IsWritable 0) :
    ∃ tokens, Spelled false tokens ∧ WritesEntries entries tokens := by
  induction entries with
  | nil => exact ⟨[], .nil, .nil⟩
  | cons entry entries ih =>
    obtain ⟨⟨before, spelledKey, writesKey⟩, hkeys⟩ := List.forall_mem_cons.mp hkey
    obtain ⟨⟨after, spelledValue, writesValue⟩, hvalues⟩ := List.forall_mem_cons.mp hvalue
    obtain ⟨more, spelledMore, writesMore⟩ := ih hkeys hvalues
    cases entries with
    | nil => exact ⟨_, spelledKey.append (spelledValue.mark (by decide)), .last writesKey writesValue⟩
    | cons next entries =>
      refine ⟨_, ?_, .more writesKey writesValue writesMore⟩
      exact spelledKey.append ((spelledValue.append (spelledMore.mark (by decide))).mark (by decide))

/-- Every tree has a text, for any place. -/
theorem Node.IsPlain.isWritable (h : node.IsPlain) (place : Nat) : node.IsWritable place := by
  induction h generalizing place with
  | atom atom => exact ⟨_, Spelled.nil.cons (hasSpelling_atom atom), .atom atom⟩
  | path _ _ ihLeft ihRight =>
    apply isWritable_parentheses
    obtain ⟨before, spelledLeft, writesLeft⟩ := ihLeft pathPower
    obtain ⟨after, spelledRight, writesRight⟩ := ihRight (pathPower + 1)
    exact ⟨_, spelledLeft.append (spelledRight.mark (by decide)), .path (Nat.zero_le _) writesLeft writesRight⟩
  | filter _ _ ihLeft ihInner =>
    apply isWritable_parentheses
    obtain ⟨before, spelledLeft, writesLeft⟩ := ihLeft predicatePower
    obtain ⟨inner, spelledInner, writesInner⟩ := ihInner 0
    refine ⟨_, ?_, .filter (Nat.zero_le _) writesLeft writesInner⟩
    exact spelledLeft.append (spelledInner.between (by decide) (by decide))
  | toArray _ ihLeft =>
    apply isWritable_parentheses
    obtain ⟨before, spelledLeft, writesLeft⟩ := ihLeft predicatePower
    refine ⟨_, ?_, .toArray (Nat.zero_le _) writesLeft⟩
    exact spelledLeft.append (Spelled.nil.between (by decide) (by decide))
  | @binary op left right position _ _ ihLeft ihRight =>
    apply isWritable_parentheses
    obtain ⟨before, spelledLeft, writesLeft⟩ := ihLeft op.power
    obtain ⟨after, spelledRight, writesRight⟩ := ihRight (op.power + 1)
    refine ⟨_, ?_, .binary op (Nat.zero_le _) op.ofToken?_token writesLeft writesRight⟩
    exact spelledLeft.append (spelledRight.cons (hasSpelling_token op))
  | negate _ ih =>
    apply isWritable_parentheses
    obtain ⟨after, spelled, writes⟩ := ih pathPower
    exact ⟨_, spelled.mark (by decide), .negate (by decide) writes⟩
  | whether _ _ ihTest ihYes =>
    apply isWritable_parentheses
    obtain ⟨before, spelledTest, writesTest⟩ := ihTest conditionPower
    obtain ⟨after, spelledYes, writesYes⟩ := ihYes conditionPower
    exact ⟨_, spelledTest.append (spelledYes.mark (by decide)), .whether writesTest writesYes⟩
  | choice _ _ _ ihTest ihYes ihNo =>
    apply isWritable_parentheses
    obtain ⟨before, spelledTest, writesTest⟩ := ihTest conditionPower
    obtain ⟨between, spelledYes, writesYes⟩ := ihYes conditionPower
    obtain ⟨after, spelledNo, writesNo⟩ := ihNo conditionPower
    refine ⟨_, ?_, .choice writesTest writesYes writesNo⟩
    exact spelledTest.append ((spelledYes.append (spelledNo.mark (by decide))).mark (by decide))
  | array _ ih =>
    obtain ⟨inner, spelled, writes⟩ := exists_writesItems fun item mem => ih item mem 0
    exact ⟨_, spelled.between (by decide) (by decide), .array writes⟩
  | object _ _ ihKey ihValue =>
    obtain ⟨inner, spelled, writes⟩ := exists_writesEntries (fun entry mem => ihKey entry mem conditionPower)
      fun entry mem => ihValue entry mem 0
    exact ⟨_, spelled.between (by decide) (by decide), .object writes⟩
  | @call function _ _ _ ih =>
    obtain ⟨inner, spelled, writes⟩ := exists_writesItems fun item mem => ih item mem 0
    refine ⟨_, ?_, .call writes⟩
    exact (spelled.between (by decide) (by decide)).cons (hasSpelling_function function)

end Existence

end Tabulate.Jsonata

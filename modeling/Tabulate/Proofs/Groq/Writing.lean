import Tabulate.Groq.Parser
import Tabulate.Proofs.Token.Spelling

/-! How queries are written: paths start from the element itself, filters stand in parentheses, and
keys have their directions. -/
namespace Tabulate.Groq
open Pipeline (Direction)
open Token (HasSpelling Spelled)

def stepTokens : PathStep → List Token
  | .key name => [.symbol ".", .ident name]
  | .index position => [.symbol "[", .number (.ofNat position), .symbol "]"]

def pathTokens (path : Path) : List Token := .symbol "@" :: path.flatMap stepTokens

/-- A path whose indexes are numbers that keep each of their digits. -/
def Exact (path : Path) : Prop := ∀ position, .index position ∈ path → position < twoTo 53

mutual

inductive WritesPrimary : Expr → List Token → Prop
  | null : WritesPrimary (.literal .null) [.ident "null"]
  | true : WritesPrimary (.literal (.bool true)) [.ident "true"]
  | false : WritesPrimary (.literal (.bool false)) [.ident "false"]
  | quoted (text : String) : WritesPrimary (.literal (.string text)) [.quoted text]
  | singleQuoted (text : String) : WritesPrimary (.literal (.string text)) [.singleQuoted text]
  | integer (i : Int) : WritesPrimary (.literal (.number (.ofInt i))) (Token.integer i)
  | path {path : Path} (exact : Exact path) : WritesPrimary (.path path) (pathTokens path)
  | array {items inner} (writesItems : WritesItems items inner) :
      WritesPrimary (.array items) (.symbol "[" :: (inner ++ [.symbol "]"]))
  | defined {e inner} (writes : WritesPrimary e inner) :
      WritesPrimary (.defined e) (.ident "defined" :: .symbol "(" :: (inner ++ [.symbol ")"]))
  | parentheses {e inner} (writes : WritesOr e inner) :
      WritesPrimary e (.symbol "(" :: (inner ++ [.symbol ")"]))

inductive WritesItems : List Expr → List Token → Prop
  | nil : WritesItems [] []
  | last {item tokens} (writes : WritesPrimary item tokens) : WritesItems [item] tokens
  | more {item next items tokens rest} (writes : WritesPrimary item tokens)
      (writesMore : WritesItems (next :: items) rest) :
      WritesItems (item :: next :: items) (tokens ++ .symbol "," :: rest)

inductive WritesComparison : Expr → List Token → Prop
  | only {e tokens} (writes : WritesPrimary e tokens) : WritesComparison e tokens
  | compare {op left right token before after} (isOp : CompareOp.ofToken? token = some op)
      (writesLeft : WritesPrimary left before) (writesRight : WritesPrimary right after) :
      WritesComparison (.compare op left right) (before ++ token :: after)
  | isIn {left right before after} (writesLeft : WritesPrimary left before)
      (writesRight : WritesPrimary right after) :
      WritesComparison (.isIn left right) (before ++ .ident "in" :: after)

inductive WritesUnary : Expr → List Token → Prop
  | only {e tokens} (writes : WritesComparison e tokens) : WritesUnary e tokens
  | not {e tokens} (writes : WritesUnary e tokens) : WritesUnary (.not e) (.symbol "!" :: tokens)

inductive WritesAnd : Expr → List Token → Prop
  | only {e tokens} (writes : WritesUnary e tokens) : WritesAnd e tokens
  | and {left right before after} (writesLeft : WritesAnd left before) (writesRight : WritesUnary right after) :
      WritesAnd (.and left right) (before ++ .symbol "&&" :: after)

inductive WritesOr : Expr → List Token → Prop
  | only {e tokens} (writes : WritesAnd e tokens) : WritesOr e tokens
  | or {left right before after} (writesLeft : WritesOr left before) (writesRight : WritesAnd right after) :
      WritesOr (.or left right) (before ++ .symbol "||" :: after)

end

inductive WritesEntry : Entry → List Token → Prop
  | spread : WritesEntry .spread [.symbol "..."]
  | quoted {value tokens} (name : String) (writes : WritesOr value tokens) :
      WritesEntry (.field name value) (.quoted name :: .symbol ":" :: tokens)
  | singleQuoted {value tokens} (name : String) (writes : WritesOr value tokens) :
      WritesEntry (.field name value) (.singleQuoted name :: .symbol ":" :: tokens)

inductive WritesEntries : List Entry → List Token → Prop
  | nil : WritesEntries [] []
  | last {entry tokens} (writes : WritesEntry entry tokens) : WritesEntries [entry] tokens
  | more {entry next entries tokens rest} (writes : WritesEntry entry tokens)
      (writesMore : WritesEntries (next :: entries) rest) :
      WritesEntries (entry :: next :: entries) (tokens ++ .symbol "," :: rest)

def directionToken : Direction → Token
  | .ascending => .ident "asc"
  | .descending => .ident "desc"

inductive WritesKeys : List (Path × Direction) → List Token → Prop
  | last {path direction} (exact : Exact path) :
      WritesKeys [(path, direction)] (pathTokens path ++ [directionToken direction])
  | more {path direction keys rest} (exact : Exact path) (writesMore : WritesKeys keys rest) :
      WritesKeys ((path, direction) :: keys)
        (pathTokens path ++ directionToken direction :: .symbol "," :: rest)

inductive WritesSegment : Segment → List Token → Prop
  | filter {condition inner} (writes : WritesOr condition inner) :
      WritesSegment (.filter condition)
        (.symbol "[" :: .symbol "(" :: (inner ++ [.symbol ")", .symbol "]"]))
  | index {position : Int} (exact : position.natAbs < twoTo 53) :
      WritesSegment (.index position) (.symbol "[" :: (Token.integer position ++ [.symbol "]"]))
  | slice {first last : Int} (inclusive : Bool) (exactFirst : first.natAbs < twoTo 53)
      (exactLast : last.natAbs < twoTo 53) :
      WritesSegment (.slice first last inclusive) (.symbol "[" :: (Token.integer first ++
        .symbol (if inclusive then ".." else "...") :: (Token.integer last ++ [.symbol "]"])))
  | projection {entries inner} (writes : WritesEntries entries inner) :
      WritesSegment (.projection entries) (.symbol "\x7b" :: (inner ++ [.symbol "\x7d"]))
  | order {keys inner} (writes : WritesKeys keys inner) :
      WritesSegment (.order keys) (.symbol "|" :: .ident "order" :: .symbol "(" :: (inner ++ [.symbol ")"]))

inductive WritesSegments : List Segment → List Token → Prop
  | nil : WritesSegments [] []
  | cons {segment segments tokens rest} (writes : WritesSegment segment tokens)
      (writesMore : WritesSegments segments rest) : WritesSegments (segment :: segments) (tokens ++ rest)

structure IsPlainPath (path : Path) : Prop where
  isName : ∀ name, .key name ∈ path → Token.isName name = true
  exact : Exact path

/-- The expressions whose values are null, truth values, texts and integers. -/
inductive Expr.IsPlain : Expr → Prop
  | null : IsPlain (.literal .null)
  | bool (b : Bool) : IsPlain (.literal (.bool b))
  | string (text : String) : IsPlain (.literal (.string text))
  | integer (i : Int) : IsPlain (.literal (.number (.ofInt i)))
  | path {path : Path} (plain : IsPlainPath path) : IsPlain (.path path)
  | array {items} (plain : ∀ item ∈ items, IsPlain item) : IsPlain (.array items)
  | compare {left right} (op : CompareOp) (plainLeft : IsPlain left) (plainRight : IsPlain right) :
      IsPlain (.compare op left right)
  | isIn {left right} (plainLeft : IsPlain left) (plainRight : IsPlain right) : IsPlain (.isIn left right)
  | and {left right} (plainLeft : IsPlain left) (plainRight : IsPlain right) : IsPlain (.and left right)
  | or {left right} (plainLeft : IsPlain left) (plainRight : IsPlain right) : IsPlain (.or left right)
  | not {inner} (plain : IsPlain inner) : IsPlain (.not inner)
  | defined {inner} (plain : IsPlain inner) : IsPlain (.defined inner)

inductive Entry.IsPlain : Entry → Prop
  | spread : IsPlain .spread
  | field {value} (name : String) (plain : value.IsPlain) : IsPlain (.field name value)

/-- The segments of such expressions and paths, with numbers that keep each of their digits. -/
inductive Segment.IsPlain : Segment → Prop
  | filter {condition} (plain : condition.IsPlain) : IsPlain (.filter condition)
  | index {position : Int} (exact : position.natAbs < twoTo 53) : IsPlain (.index position)
  | slice {first last : Int} (inclusive : Bool) (exactFirst : first.natAbs < twoTo 53)
      (exactLast : last.natAbs < twoTo 53) : IsPlain (.slice first last inclusive)
  | projection {entries} (plain : ∀ entry ∈ entries, Entry.IsPlain entry) : IsPlain (.projection entries)
  | order {keys} (nonempty : keys ≠ []) (plain : ∀ key ∈ keys, IsPlainPath key.1) : IsPlain (.order keys)

def Query.IsPlain (query : Query) : Prop := ∀ segment ∈ query.segments, segment.IsPlain

section Existence

theorem WritesPrimary.toOr {e : Expr} {tokens : List Token} (h : WritesPrimary e tokens) :
    WritesOr e tokens := .only (.only (.only (.only h)))

private theorem spelled_step {step : PathStep} (h : ∀ name, step = .key name → Token.isName name = true) :
    Spelled false (stepTokens step) := by
  cases step with
  | key name => exact (Spelled.nil.cons (Token.hasSpelling_ident (h name rfl))).mark (by decide)
  | index position =>
    exact ((Spelled.nil.mark (by decide)).cons (Token.hasSpelling_natural position)).mark (by decide)

private theorem spelled_path {path : Path} (h : IsPlainPath path) : Spelled false (pathTokens path) := by
  apply Spelled.mark _ (by decide)
  intro token mem
  obtain ⟨step, hstep, mem⟩ := List.mem_flatMap.mp mem
  exact spelled_step (fun name hname => h.isName name (hname ▸ hstep)) token mem

private theorem exists_writesItems {items : List Expr}
    (h : ∀ item ∈ items, ∃ tokens, Spelled false tokens ∧ WritesPrimary item tokens) :
    ∃ tokens, Spelled false tokens ∧ WritesItems items tokens := by
  induction items with
  | nil => exact ⟨[], .nil, .nil⟩
  | cons item items ih =>
    obtain ⟨⟨tokens, spelled, writes⟩, hitems⟩ := List.forall_mem_cons.mp h
    obtain ⟨more, spelledMore, writesMore⟩ := ih hitems
    cases items with
    | nil => exact ⟨tokens, spelled, .last writes⟩
    | cons next items => exact ⟨_, spelled.append (spelledMore.mark (by decide)), .more writes writesMore⟩

private theorem exists_parentheses {e : Expr} {tokens : List Token} (spelled : Spelled false tokens)
    (writes : WritesOr e tokens) : ∃ tokens, Spelled false tokens ∧ WritesPrimary e tokens :=
  ⟨_, spelled.between (by decide) (by decide), .parentheses writes⟩

def CompareOp.token : CompareOp → Token
  | eq => .symbol "=="
  | ne => .symbol "!="
  | gt => .symbol ">"
  | ge => .symbol ">="
  | lt => .symbol "<"
  | le => .symbol "<="

theorem CompareOp.ofToken?_token (op : CompareOp) : ofToken? op.token = some op := by
  cases op <;> rfl

private theorem hasSpelling_operator (op : CompareOp) : HasSpelling false op.token := by
  cases op <;> exact Token.hasSpelling_symbol (by decide)

/-- Every expression has a text as an operand. -/
theorem Expr.IsPlain.exists_writes {e : Expr} (h : e.IsPlain) :
    ∃ tokens, Spelled false tokens ∧ WritesPrimary e tokens := by
  induction h with
  | null => exact ⟨_, Spelled.nil.cons (Token.hasSpelling_ident (by decide)), .null⟩
  | bool b =>
    cases b with
    | true => exact ⟨_, Spelled.nil.cons (Token.hasSpelling_ident (by decide)), .true⟩
    | false => exact ⟨_, Spelled.nil.cons (Token.hasSpelling_ident (by decide)), .false⟩
  | string text => exact ⟨_, Spelled.nil.cons (Token.hasSpelling_quoted text), .quoted text⟩
  | integer i => exact ⟨_, .integer i, .integer i⟩
  | path plain => exact ⟨_, spelled_path plain, .path plain.exact⟩
  | array _ ih =>
    obtain ⟨inner, spelled, writes⟩ := exists_writesItems ih
    exact ⟨_, spelled.between (by decide) (by decide), .array writes⟩
  | compare op _ _ ihLeft ihRight =>
    obtain ⟨before, spelledLeft, writesLeft⟩ := ihLeft
    obtain ⟨after, spelledRight, writesRight⟩ := ihRight
    have spelled := spelledLeft.append (spelledRight.cons (hasSpelling_operator op))
    exact exists_parentheses spelled (.only (.only (.only (.compare op.ofToken?_token writesLeft writesRight))))
  | isIn _ _ ihLeft ihRight =>
    obtain ⟨before, spelledLeft, writesLeft⟩ := ihLeft
    obtain ⟨after, spelledRight, writesRight⟩ := ihRight
    have hin : Token.isName "in" = true := by decide
    have spelled := spelledLeft.append (spelledRight.cons (Token.hasSpelling_ident hin))
    exact exists_parentheses spelled (.only (.only (.only (.isIn writesLeft writesRight))))
  | and _ _ ihLeft ihRight =>
    obtain ⟨before, spelledLeft, writesLeft⟩ := ihLeft
    obtain ⟨after, spelledRight, writesRight⟩ := ihRight
    have writes := WritesAnd.and (.only (.only (.only writesLeft))) (.only (.only writesRight))
    exact exists_parentheses (spelledLeft.append (spelledRight.mark (by decide))) (.only writes)
  | or _ _ ihLeft ihRight =>
    obtain ⟨before, spelledLeft, writesLeft⟩ := ihLeft
    obtain ⟨after, spelledRight, writesRight⟩ := ihRight
    have writes := WritesOr.or writesLeft.toOr (.only (.only (.only writesRight)))
    exact exists_parentheses (spelledLeft.append (spelledRight.mark (by decide))) writes
  | not _ ih =>
    obtain ⟨tokens, spelled, writes⟩ := ih
    exact exists_parentheses (spelled.mark (by decide)) (.only (.only (.not (.only (.only writes)))))
  | defined _ ih =>
    obtain ⟨tokens, spelled, writes⟩ := ih
    have hdefined : Token.isName "defined" = true := by decide
    have parenthesised : Spelled false (.symbol "(" :: (tokens ++ [.symbol ")"])) :=
      spelled.between (by decide) (by decide)
    exact ⟨_, parenthesised.cons (Token.hasSpelling_ident hdefined), .defined writes⟩

private theorem exists_writesEntries {entries : List Entry} (h : ∀ entry ∈ entries, entry.IsPlain) :
    ∃ tokens, Spelled false tokens ∧ WritesEntries entries tokens := by
  have entryTokens {entry : Entry} (plain : entry.IsPlain) :
      ∃ tokens, Spelled false tokens ∧ WritesEntry entry tokens := by
    cases plain with
    | spread => exact ⟨_, Spelled.nil.mark (by decide), .spread⟩
    | field name plain =>
      obtain ⟨tokens, spelled, writes⟩ := plain.exists_writes
      exact ⟨_, (spelled.mark (by decide)).cons (Token.hasSpelling_quoted name), .quoted name writes.toOr⟩
  induction entries with
  | nil => exact ⟨[], .nil, .nil⟩
  | cons entry entries ih =>
    obtain ⟨plain, hentries⟩ := List.forall_mem_cons.mp h
    obtain ⟨tokens, spelled, writes⟩ := entryTokens plain
    obtain ⟨more, spelledMore, writesMore⟩ := ih hentries
    cases entries with
    | nil => exact ⟨tokens, spelled, .last writes⟩
    | cons next entries => exact ⟨_, spelled.append (spelledMore.mark (by decide)), .more writes writesMore⟩

private theorem hasSpelling_direction (direction : Direction) : HasSpelling false (directionToken direction) := by
  cases direction <;> exact Token.hasSpelling_ident (by decide)

private theorem exists_writesKeys {keys : List (Path × Direction)} (nonempty : keys ≠ [])
    (h : ∀ key ∈ keys, IsPlainPath key.1) : ∃ tokens, Spelled false tokens ∧ WritesKeys keys tokens := by
  induction keys with
  | nil => exact absurd rfl nonempty
  | cons key keys ih =>
    obtain ⟨plain, hkeys⟩ := List.forall_mem_cons.mp h
    have direction := hasSpelling_direction key.2
    cases keys with
    | nil => exact ⟨_, (spelled_path plain).append (Spelled.nil.cons direction), .last plain.exact⟩
    | cons next keys =>
      obtain ⟨more, spelledMore, writesMore⟩ := ih (List.cons_ne_nil _ _) hkeys
      refine ⟨_, ?_, .more plain.exact writesMore⟩
      exact (spelled_path plain).append ((spelledMore.mark (by decide)).cons direction)

private theorem Segment.IsPlain.exists_writes {segment : Segment} (h : segment.IsPlain) :
    ∃ tokens, Spelled false tokens ∧ WritesSegment segment tokens := by
  cases h with
  | filter plain =>
    obtain ⟨tokens, spelled, writes⟩ := plain.exists_writes
    refine ⟨_, ?_, .filter writes.toOr⟩
    exact ((spelled.append ((Spelled.nil.mark (by decide)).mark (by decide))).mark (by decide)).mark (by decide)
  | index exact => exact ⟨_, (Spelled.integer _).between (by decide) (by decide), .index exact⟩
  | @slice first last inclusive exactFirst exactLast =>
    refine ⟨_, ?_, .slice inclusive exactFirst exactLast⟩
    have mem : (if inclusive then ".." else "...") ∈ Token.symbols := by
      cases inclusive <;> decide
    have spelledLast : Spelled false (Token.integer last ++ [.symbol "]"]) :=
      (Spelled.integer last).append (Spelled.nil.mark (by decide))
    exact ((Spelled.integer first).append (spelledLast.mark mem)).mark (by decide)
  | projection plain =>
    obtain ⟨inner, spelled, writes⟩ := exists_writesEntries plain
    exact ⟨_, spelled.between (by decide) (by decide), .projection writes⟩
  | order nonempty plain =>
    obtain ⟨inner, spelled, writes⟩ := exists_writesKeys nonempty plain
    have parenthesised : Spelled false (.symbol "(" :: (inner ++ [.symbol ")"])) :=
      spelled.between (by decide) (by decide)
    have hname : Token.isName "order" = true := by decide
    exact ⟨_, (parenthesised.cons (Token.hasSpelling_ident hname)).mark (by decide), .order writes⟩

/-- All segments of a query have a text. -/
theorem exists_writesSegments {segments : List Segment} (h : ∀ segment ∈ segments, segment.IsPlain) :
    ∃ tokens, Spelled false tokens ∧ WritesSegments segments tokens := by
  induction segments with
  | nil => exact ⟨[], .nil, .nil⟩
  | cons segment segments ih =>
    obtain ⟨plain, hsegments⟩ := List.forall_mem_cons.mp h
    obtain ⟨tokens, spelled, writes⟩ := plain.exists_writes
    obtain ⟨more, spelledMore, writesMore⟩ := ih hsegments
    exact ⟨_, spelled.append spelledMore, .cons writes writesMore⟩

end Existence

end Tabulate.Groq

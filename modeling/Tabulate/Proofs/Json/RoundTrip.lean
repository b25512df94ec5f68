import Tabulate.Payload.Reader
import Tabulate.Proofs.Json.Grammar
import Tabulate.Proofs.Number.Whole
import Tabulate.Proofs.Text.Utf8
import Tabulate.Proofs.Value.Fields

/-! Values that are written as JSON, on one line or with indentation, are read back. -/
namespace Tabulate

namespace Value

mutual

def depth : Value → Nat
  | .array items => depthOfItems items + 1
  | .object fields => depthOfFields fields + 1
  | _ => 0

def depthOfItems : List Value → Nat
  | [] => 0
  | v :: rest => max v.depth (depthOfItems rest)

def depthOfFields : List (String × Value) → Nat
  | [] => 0
  | (_, v) :: rest => max v.depth (depthOfFields rest)

end

mutual

/-- All numbers are written as integers, none is zero with a sign, and no object has a key twice. -/
def Exact : Value → Prop
  | .number n => n.isIntegral = true ∧ n ≠ Number.zero true
  | .array items => ExactItems items
  | .object fields => (fields.map Prod.fst).Nodup ∧ ExactFields fields
  | .null | .bool _ | .string _ => True

def ExactItems : List Value → Prop
  | [] => True
  | v :: rest => v.Exact ∧ ExactItems rest

def ExactFields : List (String × Value) → Prop
  | [] => True
  | (_, v) :: rest => v.Exact ∧ ExactFields rest

end

end Value

namespace Json
open Value

mutual

/-- The document of an exact value has its value. -/
theorem toValue_ofValue : ∀ {v : Value}, v.Exact → (Tree.ofValue v).toValue = v
  | .null, _ | .bool _, _ | .string _, _ => rfl
  | .number n, h => by
    rw [Tree.ofValue, Tree.ofNumber, if_pos h.1, Tree.toValue, Number.ofInt_toInt64 h.1 h.2]
  | .array items, h => by
    rw [Tree.ofValue, Tree.toValue, toItems_ofItems h]
  | .object fields, h => by
    rw [Tree.ofValue, Tree.toValue, toPairs_ofFields h.2, Fields.ofList_eq_self h.1]

private theorem toItems_ofItems : ∀ {items : List Value}, ExactItems items →
    Tree.toItems (Tree.ofItems items) = items
  | [], _ => rfl
  | v :: rest, h => by
    rw [Tree.ofItems, Tree.toItems, toValue_ofValue h.1, toItems_ofItems h.2]

private theorem toPairs_ofFields : ∀ {fields : List (String × Value)}, ExactFields fields →
    Tree.toPairs (Tree.ofFields fields) = fields
  | [], _ => rfl
  | (key, v) :: rest, h => by
    rw [Tree.ofFields, Tree.toPairs, toValue_ofValue h.1, toPairs_ofFields h.2]

end

private theorem stops_gap {gap : List Char} (blank : IsGap gap) {c : Char}
    (hc : c ∈ [',', ']', '\x7d']) (rest : List Char) : Stops (gap ++ c :: rest) := by
  have hblank : ∀ b, IsBlank b → b.isDigit = false ∧ b ≠ '.' ∧ b ≠ 'e' ∧ b ≠ 'E' := by
    rintro b (rfl | rfl | rfl | rfl) <;> decide
  have hmark : ∀ b ∈ [',', ']', '\x7d'], b.isDigit = false ∧ b ≠ '.' ∧ b ≠ 'e' ∧ b ≠ 'E' := by
    simp only [List.mem_cons, List.not_mem_nil, or_false]
    rintro b (rfl | rfl | rfl) <;> decide
  intro b hb
  cases gap with
  | nil =>
    cases hb
    exact hmark c hc
  | cons g gap =>
    cases hb
    exact hblank b (blank b List.mem_cons_self)

def separated {α : Type} (gap : List Char) (print : α → List Char) : List α → List Char
  | [] => []
  | [a] => gap ++ print a
  | a :: b :: more => gap ++ (print a ++ ',' :: separated gap print (b :: more))

def member (gap : List Char) (print : Tree → List Char) (field : String × Tree) : List Char :=
  quoted field.1 ++ ':' :: (gap ++ print field.2)

/-- What the two printers have in common: a printer that writes, in a container on some level,
a gap before each item and before the end, and a gap after each colon. -/
structure Layout (gap : Nat → List Char) (colon : List Char) (print : Nat → Tree → List Char) :
    Prop where
  blank (level : Nat) : IsGap (gap level)
  blankColon : IsGap colon
  null (level : Nat) : print level .null = "null".toList
  bool (level : Nat) (b : Bool) : print level (.bool b) = (if b then "true" else "false").toList
  integer (level : Nat) (n : Int) : print level (.integer n) = digits n
  string (level : Nat) (s : String) : print level (.string s) = quoted s
  emptyArray (level : Nat) : print level (.array []) = ['[', ']']
  array (level : Nat) (item : Tree) (items : List Tree) : print level (.array (item :: items)) =
    '[' :: (separated (gap (level + 1)) (print (level + 1)) (item :: items) ++ (gap level ++ [']']))
  emptyObject (level : Nat) : print level (.object []) = ['\x7b', '\x7d']
  object (level : Nat) (field : String × Tree) (fields : List (String × Tree)) :
    print level (.object (field :: fields)) = '\x7b' ::
      (separated (gap (level + 1)) (member colon (print (level + 1))) (field :: fields) ++
        (gap level ++ ['\x7d']))

section Printers

theorem compactItems_eq : ∀ items, compactItems items = separated [] compact items
  | [] | [_] => rfl
  | item :: next :: more => by
    rw [compactItems, compactItems_eq (next :: more)]
    · rfl
    · simp

theorem compactFields_eq : ∀ fields,
    compactFields fields = separated [] (member [] compact) fields
  | [] | [_] => rfl
  | field :: next :: more => by
    rw [compactFields, compactFields_eq (next :: more)]
    · simp [separated, member]
    · simp

private theorem prettyItems_eq (level : Nat) : ∀ items,
    prettyItems level items = separated (newLine level) (prettyAt level) items
  | [] => rfl
  | [_] => by rw [prettyItems]; rfl
  | item :: next :: more => by
    rw [prettyItems, prettyItems_eq level (next :: more)]
    · simp [separated]
    · simp

private theorem prettyFields_eq (level : Nat) : ∀ fields,
    prettyFields level fields = separated (newLine level) (member [' '] (prettyAt level)) fields
  | [] => rfl
  | [_] => by rw [prettyFields]; simp [separated, member]
  | field :: next :: more => by
    rw [prettyFields, prettyFields_eq level (next :: more)]
    · simp [separated, member]
    · simp

private theorem layout_compact : Layout (fun _ => []) [] fun _ => compact where
  blank _ := isGap_nil
  blankColon := isGap_nil
  null _ := rfl
  bool _ _ := rfl
  integer _ _ := rfl
  string _ _ := rfl
  emptyArray _ := rfl
  array _ item items := by rw [compact, compactItems_eq]; rfl
  emptyObject _ := rfl
  object _ field fields := by rw [compact, compactFields_eq]; rfl

private theorem layout_pretty : Layout newLine [' '] prettyAt where
  blank level := List.forall_mem_cons.mpr
    ⟨.inr (.inl rfl), fun _ h => .inl (List.eq_of_mem_replicate h)⟩
  blankColon := List.forall_mem_singleton.mpr (.inl rfl)
  null _ := rfl
  bool _ _ := rfl
  integer _ _ := rfl
  string _ _ := rfl
  emptyArray _ := rfl
  array _ item items := by rw [prettyAt, prettyItems_eq, List.append_assoc]; simp
  emptyObject _ := rfl
  object _ field fields := by rw [prettyAt, prettyFields_eq, List.append_assoc]; simp

end Printers

section Lists
variable {depth : Nat} {gap colon after : List Char}

private theorem items_separated (blank : IsGap gap) (blank' : IsGap after)
    {print : Tree → List Char} (rest : List Char) : ∀ (items : List Tree), items ≠ [] →
    (∀ t ∈ items, ∀ rest, Stops rest → Document depth (print t ++ rest) t rest) →
    Items depth (separated gap print items ++ (after ++ ']' :: rest)) items rest
  | [item], _, h => by
    rw [separated, List.append_assoc]
    exact .last blank blank' (h item List.mem_cons_self _ (stops_gap blank' (by decide) rest))
  | item :: next :: more, _, h => by
    have others := items_separated blank blank' rest (next :: more) (List.cons_ne_nil _ _)
      fun t ht => h t (List.mem_cons_of_mem _ ht)
    rw [separated, List.append_assoc, List.append_assoc]
    exact .more blank isGap_nil
      (h item List.mem_cons_self _ (stops_gap isGap_nil (by decide) _)) others

private theorem members_separated (blank : IsGap gap) (blankColon : IsGap colon)
    (blank' : IsGap after) {print : Tree → List Char} (rest : List Char) :
    ∀ (fields : List (String × Tree)), fields ≠ [] →
    (∀ f ∈ fields, ∀ rest, Stops rest → Document depth (print f.2 ++ rest) f.2 rest) →
    Members depth (separated gap (member colon print) fields ++ (after ++ '\x7d' :: rest)) fields rest
  | [(key, t)], _, h => by
    simp only [separated, member, List.append_assoc, List.cons_append]
    exact .last key blank isGap_nil blankColon blank'
      (h (key, t) List.mem_cons_self _ (stops_gap blank' (by decide) rest))
  | (key, t) :: next :: more, _, h => by
    have others := members_separated blank blankColon blank' rest (next :: more)
      (List.cons_ne_nil _ _) fun f hf => h f (List.mem_cons_of_mem _ hf)
    rw [separated, member]
    simp only [List.append_assoc, List.cons_append]
    exact .more key blank isGap_nil blankColon isGap_nil
      (h (key, t) List.mem_cons_self _ (stops_gap isGap_nil (by decide) _)) others

end Lists

section Documents
variable {gap : Nat → List Char} {colon : List Char} {print : Nat → Tree → List Char}

mutual

/-- What a printer writes for an exact value is a document of the grammar, on every level. -/
theorem Layout.document (l : Layout gap colon print) {depth : Nat} :
    ∀ {v : Value}, v.Exact → v.depth ≤ depth → ∀ level rest, Stops rest →
      Document depth (print level (Tree.ofValue v) ++ rest) (Tree.ofValue v) rest
  | .null, _, _, level, _, _ => by
    rw [Tree.ofValue, l.null]
    exact .null
  | .bool b, _, _, level, _, _ => by
    rw [Tree.ofValue, l.bool]
    exact .bool b
  | .number n, h, _, level, rest, stops => by
    have size : n.toInt64.natAbs ≤ twoTo 63 :=
      Nat.le_trans (Nat.le_of_lt (Number.natAbs_toInt64_lt h.1)) (by decide)
    rw [Tree.ofValue, Tree.ofNumber, if_pos h.1, l.integer]
    exact .integer size stops
  | .string s, _, _, level, _, _ => by
    rw [Tree.ofValue, l.string]
    exact .string s
  | .array items, h, hd, level, rest, _ => by
    obtain ⟨depth, rfl⟩ : ∃ n, depth = n + 1 := ⟨depth - 1, by rw [Value.depth] at hd; omega⟩
    have hitems := l.documents h (Nat.le_of_succ_le_succ hd) (level + 1)
    rw [Tree.ofValue]
    cases items with
    | nil =>
      rw [Tree.ofItems, l.emptyArray]
      exact .emptyArray isGap_nil
    | cons item items =>
      rw [Tree.ofItems, l.array, List.cons_append, List.append_assoc, List.append_assoc]
      exact .array (items_separated (l.blank _) (l.blank _) rest _ (List.cons_ne_nil _ _) hitems)
  | .object fields, h, hd, level, rest, _ => by
    obtain ⟨depth, rfl⟩ : ∃ n, depth = n + 1 := ⟨depth - 1, by rw [Value.depth] at hd; omega⟩
    have hfields := l.fieldDocuments h.2 (Nat.le_of_succ_le_succ hd) (level + 1)
    rw [Tree.ofValue]
    cases fields with
    | nil =>
      rw [Tree.ofFields, l.emptyObject]
      exact .emptyObject isGap_nil
    | cons field fields =>
      rw [Tree.ofFields, l.object, List.cons_append, List.append_assoc, List.append_assoc]
      exact .object (members_separated (l.blank _) l.blankColon (l.blank _) rest _
        (List.cons_ne_nil _ _) hfields)

private theorem Layout.documents (l : Layout gap colon print) {depth : Nat} :
    ∀ {items : List Value}, ExactItems items → depthOfItems items ≤ depth → ∀ level,
      ∀ t ∈ Tree.ofItems items, ∀ rest, Stops rest → Document depth (print level t ++ rest) t rest
  | [], _, _, _, _, ht => (List.not_mem_nil ht).elim
  | v :: more, h, hd, level, t, ht => by
    rw [depthOfItems, Nat.max_le] at hd
    rcases List.mem_cons.mp ht with rfl | ht
    · exact l.document h.1 hd.1 level
    · exact l.documents h.2 hd.2 level t ht

private theorem Layout.fieldDocuments (l : Layout gap colon print) {depth : Nat} :
    ∀ {fields : List (String × Value)}, ExactFields fields → depthOfFields fields ≤ depth →
      ∀ level, ∀ f ∈ Tree.ofFields fields, ∀ rest, Stops rest →
        Document depth (print level f.2 ++ rest) f.2 rest
  | [], _, _, _, _, hf => (List.not_mem_nil hf).elim
  | (key, v) :: more, h, hd, level, f, hf => by
    rw [depthOfFields, Nat.max_le] at hd
    rcases List.mem_cons.mp hf with rfl | hf
    · exact l.document h.1 hd.1 level
    · exact l.fieldDocuments h.2 hd.2 level f hf

end

/-- What a printer writes for an exact value is read as the value. -/
theorem Layout.read (l : Layout gap colon print) {v : Value} (exact : v.Exact)
    (depth : v.depth ≤ maxDepth) :
    Json.read (String.ofList (print 0 (Tree.ofValue v))) = .ok v := by
  have hdocument := l.document exact depth 0 [] fun _ h => by cases h
  have hread := readWithin_document isGap_nil isGap_nil hdocument
  rw [List.nil_append, List.append_nil] at hread
  rw [Json.read, Tree.read, String.toList_ofList, hread]
  exact congrArg Except.ok (toValue_ofValue exact)

/-- What a printer writes does not start with a byte order mark. -/
theorem Layout.withoutMark (l : Layout gap colon print) {v : Value} (exact : v.Exact) :
    Tabulate.withoutMark (print 0 (Tree.ofValue v)) = print 0 (Tree.ofValue v) := by
  have hdocument := l.document exact (Nat.le_refl _) 0 [] fun _ h => by cases h
  obtain ⟨c, more, hcons, opens⟩ := hdocument.starts
  rw [List.append_nil] at hcons
  rw [hcons]
  exact if_neg opens.toNat_ne

/-- The bytes of what a printer writes for an exact value are read as the value. -/
theorem Layout.read_encode (l : Layout gap colon print) (o : Delimited.Options) {v : Value}
    (exact : v.Exact) (depth : v.depth ≤ maxDepth) :
    Payload.read .json o (Utf8.encode (String.ofList (print 0 (Tree.ofValue v)))) = pure v := by
  have hmark := l.withoutMark exact
  rw [← String.toList_ofList (l := print 0 (Tree.ofValue v))] at hmark
  rw [Payload.read, decodeText_encode hmark]
  show Payload.lift .json (Json.read _) = _
  rw [l.read exact depth]
  rfl

end Documents

end Json

namespace Payload

/-- Reading JSON undoes writing it, on one line and with indentation. -/
theorem read_writtenJson (o : Delimited.Options) {v : Value} (exact : v.Exact)
    (depth : v.depth ≤ 127) :
    Payload.read .json o (Utf8.encode v.json) = pure v ∧
      Payload.read .json o (Utf8.encode v.prettyJson) = pure v :=
  ⟨Json.layout_compact.read_encode o exact depth, Json.layout_pretty.read_encode o exact depth⟩

/-- Keys out of order, a control character, a character of four bytes, the least integer that is
written as one, and empty containers. -/
def nestedSample : Value :=
  .object
    [("b", .array [.number (Number.ofInt (-8999999999999999)), .array [], .object []]),
      ("a\"\n", .string (String.ofList [Char.ofNat 1, '\\', Char.ofNat 0x1f600])),
      ("", .object [("b", .null), ("a", .bool false), ("c", .number (Number.ofInt 0))])]

theorem read_writtenJson_nestedSample :
    nestedSample.Exact ∧ nestedSample.depth ≤ 127 ∧
      Payload.read .json .standard (Utf8.encode nestedSample.json) = pure nestedSample ∧
      Payload.read .json .standard (Utf8.encode nestedSample.prettyJson) = pure nestedSample := by
  have exact : nestedSample.Exact := by
    simp only [nestedSample, Value.Exact, Value.ExactItems, Value.ExactFields]
    decide +kernel
  have depth : nestedSample.depth ≤ 127 := by decide
  exact ⟨exact, depth, read_writtenJson .standard exact depth⟩

end Payload

end Tabulate

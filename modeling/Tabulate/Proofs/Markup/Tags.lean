import Mathlib.Algebra.BigOperators.Group.List.Basic
import Mathlib.Data.List.Nodup
import Tabulate.Proofs.Markup.Escaping
import Tabulate.Proofs.Value.Fields

/-! Tags as they are written: a name, and attributes with their values in quotes. The element
that a tag opens has its name and its attributes in order. -/
namespace Tabulate.Markup

def isNameChar (c : Char) : Bool := c.isAlphanum || c = '_' || c = '-' || c = '.'

def isName (name : String) : Bool :=
  match name.toList with
  | [] => false
  | c :: rest => c.isAlpha && rest.all isNameChar

def attributeText (a : String × String) : List Char :=
  ' ' :: (a.1.toList ++ '=' :: '"' :: (escaped a.2.toList ++ ['"']))

def tagText (name : String) (attributes : List (String × String)) : List Char :=
  name.toList ++ attributes.flatMap attributeText

structure IsTag (name : String) (attributes : List (String × String)) : Prop where
  name : isName name = true
  names : ∀ a ∈ attributes, isName a.1 = true
  distinct : (attributes.map Prod.fst).Nodup

section Names
variable {name : String} {c d : Char}

theorem ne_of_isNameChar (h : isNameChar c = true) (hd : isNameChar d = false) : c ≠ d := by
  rintro rfl
  rw [h] at hd
  contradiction

theorem isSpace_of_isNameChar (h : isNameChar c = true) : isSpace c = false := by
  cases hspace : isSpace c with
  | false => rfl
  | true => obtain rfl | rfl | rfl | rfl := isSpace_cases hspace <;> contradiction

theorem isName_cases (h : isName name = true) :
    ∃ first more, name.toList = first :: more ∧ first.isAlpha = true := by
  unfold isName at h
  cases hname : name.toList with
  | nil =>
    rw [hname] at h
    contradiction
  | cons first more =>
    rw [hname] at h
    exact ⟨first, more, rfl, (Bool.and_eq_true_iff.mp h).1⟩

theorem isNameChar_of_mem (h : isName name = true) (hc : c ∈ name.toList) : isNameChar c = true := by
  unfold isName at h
  cases hname : name.toList with
  | nil =>
    rw [hname] at h
    contradiction
  | cons first more =>
    rw [hname] at h hc
    obtain ⟨halpha, hmore⟩ := Bool.and_eq_true_iff.mp h
    rcases List.mem_cons.mp hc with rfl | hc
    · simp [isNameChar, Char.isAlphanum, halpha]
    · exact List.all_eq_true.mp hmore c hc

end Names

section Scanning

/-- A part of a tag over which the search for its end passes. -/
private def Passes (word : List Char) : Prop :=
  ∀ seen rest, splitTag? none seen (word ++ rest) = splitTag? none (word.reverse ++ seen) rest

private theorem Passes.append {u v : List Char} (hu : Passes u) (hv : Passes v) : Passes (u ++ v) := by
  intro seen rest
  rw [List.append_assoc, hu, hv, List.reverse_append, List.append_assoc]

private theorem passes_plain {word : List Char} (h : ∀ c ∈ word, c ≠ '>' ∧ c ≠ '"' ∧ c ≠ '\'') :
    Passes word := by
  induction word with
  | nil => exact fun _ _ => rfl
  | cons c word ih =>
    intro seen rest
    obtain ⟨⟨hend, hquote, hmark⟩, hword⟩ := List.forall_mem_cons.mp h
    rw [List.cons_append, splitTag?]
    simp only [hend, hquote, hmark, or_self, if_false]
    rw [ih hword, List.reverse_cons, List.append_assoc, List.singleton_append]

private theorem splitTag?_value {value : List Char} (h : ∀ c ∈ value, c ≠ '"')
    (seen rest : List Char) : splitTag? (some '"') seen (value ++ '"' :: rest) =
      splitTag? none ('"' :: (value.reverse ++ seen)) rest := by
  induction value generalizing seen with
  | nil => rfl
  | cons c value ih =>
    obtain ⟨hc, hvalue⟩ := List.forall_mem_cons.mp h
    rw [List.cons_append, splitTag?]
    simp only [hc, if_false]
    rw [ih hvalue, List.reverse_cons, List.append_assoc, List.singleton_append]

private theorem passes_name {name : String} (h : isName name = true) : Passes name.toList :=
  passes_plain fun _ hc =>
    have hchar := isNameChar_of_mem h hc
    ⟨ne_of_isNameChar hchar rfl, ne_of_isNameChar hchar rfl, ne_of_isNameChar hchar rfl⟩

private theorem passes_attribute {a : String × String} (h : isName a.1 = true) :
    Passes (attributeText a) := by
  have hstart : Passes ([' '] ++ (a.1.toList ++ ['='])) :=
    (passes_plain (by simp)).append ((passes_name h).append (passes_plain (by simp)))
  have hvalue : Passes ('"' :: (escaped a.2.toList ++ ['"'])) := by
    intro seen rest
    have hquote : ∀ c ∈ escaped a.2.toList, c ≠ '"' := fun _ hc => (mem_escaped hc).2.2.1
    rw [List.cons_append, List.append_assoc]
    refine (splitTag?_value hquote ('"' :: seen) rest).trans ?_
    simp
  have htext : attributeText a =
      ([' '] ++ (a.1.toList ++ ['='])) ++ '"' :: (escaped a.2.toList ++ ['"']) := by
    simp [attributeText]
  rw [htext]
  exact hstart.append hvalue

private theorem passes_attributes {attributes : List (String × String)}
    (names : ∀ a ∈ attributes, isName a.1 = true) : Passes (attributes.flatMap attributeText) := by
  induction attributes with
  | nil => exact fun _ _ => rfl
  | cons a attributes ih =>
    obtain ⟨hfirst, hmore⟩ := List.forall_mem_cons.mp names
    exact (passes_attribute hfirst).append (ih hmore)

private theorem passes_tagText {name : String} {attributes : List (String × String)}
    (h : IsTag name attributes) : Passes (tagText name attributes) :=
  (passes_name h.name).append (passes_attributes h.names)

end Scanning

section Attributes
open Content

private theorem splitBefore_append {stop : Char → Bool} {word rest : List Char}
    (hword : ∀ c ∈ word, stop c = false) (hrest : ∀ c ∈ rest.head?, stop c = true) (p : Nat) :
    (⟨p, word ++ rest⟩ : Content).splitBefore stop = (word, ⟨p + byteCount word, rest⟩) := by
  have htake : (word ++ rest).takeWhile (!stop ·) = word := by
    rw [List.takeWhile_append_of_pos fun c hc => by simp [hword c hc]]
    cases rest with
    | nil => exact List.append_nil word
    | cons c rest =>
      have hc : ¬ (!stop c) = true := by simp [hrest c rfl]
      exact (congrArg (word ++ ·) (List.takeWhile_cons_of_neg hc)).trans (List.append_nil word)
  have hdrop : (word ++ rest).dropWhile (!stop ·) = rest := by
    rw [List.dropWhile_append_of_pos fun c hc => by simp [hword c hc]]
    cases rest with
    | nil => rfl
    | cons c rest =>
      have hc : ¬ (!stop c) = true := by simp [hrest c rfl]
      exact List.dropWhile_cons_of_neg hc
  simp only [splitBefore, htake, hdrop]

private theorem skipSpace_solid {c : Char} (h : isSpace c = false) (p : Nat) (rest : List Char) :
    (⟨p, c :: rest⟩ : Content).skipSpace = ⟨p, c :: rest⟩ := by
  rw [skipSpace, ← List.nil_append (c :: rest), splitBefore_append (List.forall_mem_nil _)]
  · rfl
  · rintro c' ⟨⟩
    simp [h]

private theorem skipSpace_space {c : Char} (h : isSpace c = false) (p : Nat) (rest : List Char) :
    (⟨p, ' ' :: c :: rest⟩ : Content).skipSpace = ⟨p + 1, c :: rest⟩ := by
  have hsplit : (⟨p, [' '] ++ c :: rest⟩ : Content).splitBefore (!isSpace ·) =
      ([' '], ⟨p + 1, c :: rest⟩) :=
    splitBefore_append (by simp [isSpace]) (by simp [h]) p
  exact congrArg Prod.snd hsplit

private theorem readValue_quoted {value : List Char} (h : ∀ c ∈ value, c ≠ '"') (p : Nat)
    (rest : List Char) :
    ∃ next, readValue .xml ⟨p, '"' :: (value ++ '"' :: rest)⟩ = .ok (value, ⟨next, rest⟩) := by
  refine ⟨p + 1 + byteCount value + 1, ?_⟩
  have hsplit : (⟨p + 1, value ++ '"' :: rest⟩ : Content).splitBefore (· = '"') =
      (value, ⟨p + 1 + byteCount value, '"' :: rest⟩) :=
    splitBefore_append (fun c hc => by simp [h c hc]) (by simp) (p + 1)
  unfold readValue
  rw [skipSpace_solid rfl]
  simp only [true_or, if_true, tail, List.tail_cons, hsplit]
  rfl

private theorem readAttribute_text {a : String × String} (h : isName a.1 = true) {first : Char}
    {more : List Char} (hname : a.1.toList = first :: more)
    {isNew : Attribute → Except AttributeFault Unit} (p : Nat)
    (hnew : isNew ⟨first :: more, [], p⟩ = .ok ()) (rest : List Char) :
    ∃ next, readAttribute .xml isNew first
      ⟨p, a.1.toList ++ '=' :: '"' :: (escaped a.2.toList ++ '"' :: rest)⟩ =
        .ok (⟨a.1.toList, escaped a.2.toList, p⟩, ⟨next, rest⟩) := by
  have hmore : ∀ c ∈ more, (c = '=' || isSpace c) = false := by
    intro c hc
    have hchar := isNameChar_of_mem h (hname ▸ List.mem_cons_of_mem first hc)
    simp [isSpace_of_isNameChar hchar, ne_of_isNameChar hchar (d := '=') rfl]
  have hquote : ∀ c ∈ escaped a.2.toList, c ≠ '"' := fun c hc => (mem_escaped hc).2.2.1
  generalize escaped a.2.toList = value at hquote ⊢
  have hsplit (q : Nat) : (⟨q, more ++ '=' :: '"' :: (value ++ '"' :: rest)⟩ : Content).splitBefore
      (fun c => c = '=' || isSpace c) =
        (more, ⟨q + byteCount more, '=' :: '"' :: (value ++ '"' :: rest)⟩) :=
    splitBefore_append hmore (by simp) q
  obtain ⟨next, hvalue⟩ := readValue_quoted hquote (p + first.utf8Size + byteCount more + 1) rest
  refine ⟨next, ?_⟩
  rw [hname, readAttribute]
  simp only [List.cons_append, List.tail_cons, hsplit]
  rw [skipSpace_solid rfl]
  simp only [tail, List.tail_cons, hnew, hvalue, bind, Except.bind]
  rfl

private theorem readAll_attributes {attributes : List (String × String)}
    (names : ∀ a ∈ attributes, isName a.1 = true) (distinct : (attributes.map Prod.fst).Nodup)
    {before : List Attribute} (new : ∀ b ∈ before, ∀ a ∈ attributes, b.key ≠ a.1.toList)
    {fuel : Nat} (enough : attributes.length < fuel) (p : Nat) :
    ∃ found, readAll .xml fuel before ⟨p, attributes.flatMap attributeText⟩ =
      (before.reverse ++ found, none) ∧
        found.map (fun b => (b.key, b.value)) =
          attributes.map fun a => (a.1.toList, escaped a.2.toList) := by
  induction attributes generalizing before fuel p with
  | nil =>
    obtain ⟨fuel, rfl⟩ : ∃ n, fuel = n + 1 := ⟨fuel - 1, by omega⟩
    exact ⟨[], by rw [List.append_nil]; rfl, rfl⟩
  | cons a attributes ih =>
    obtain ⟨fuel, rfl⟩ : ∃ n, fuel = n + 1 := ⟨fuel - 1, by omega⟩
    obtain ⟨hfirst, hnames⟩ := List.forall_mem_cons.mp names
    rw [List.map_cons, List.nodup_cons] at distinct
    obtain ⟨first, more, hname, -⟩ := isName_cases hfirst
    have hsolid : isSpace first = false :=
      isSpace_of_isNameChar (isNameChar_of_mem hfirst (hname ▸ List.mem_cons_self))
    have hnew : checkNew before ⟨first :: more, [], p + 1⟩ = .ok () := by
      have hfind : before.find? (·.key = first :: more) = none := by
        refine List.find?_eq_none.mpr fun b hb => ?_
        rw [← hname]
        simpa using new b hb a List.mem_cons_self
      simp only [checkNew, hfind]
    obtain ⟨next, hread⟩ := readAttribute_text hfirst hname (p + 1) hnew
      (attributes.flatMap attributeText)
    let b : Attribute := ⟨a.1.toList, escaped a.2.toList, p + 1⟩
    have new' : ∀ c ∈ b :: before, ∀ d ∈ attributes, c.key ≠ d.1.toList := by
      refine List.forall_mem_cons.mpr ⟨fun d hd heq => ?_, fun c hc d hd => ?_⟩
      · exact distinct.1 (String.toList_inj.mp heq ▸ List.mem_map_of_mem hd)
      · exact new c hc d (List.mem_cons_of_mem a hd)
    have enough' : attributes.length < fuel := Nat.lt_of_succ_lt_succ enough
    obtain ⟨found, hfound, hmap⟩ := ih hnames distinct.2 new' enough' next
    refine ⟨b :: found, ?_, by rw [List.map_cons, hmap]; rfl⟩
    have htext : (a :: attributes).flatMap attributeText = ' ' :: (a.1.toList ++ '=' :: '"' ::
        (escaped a.2.toList ++ '"' :: attributes.flatMap attributeText)) := by
      simp [attributeText]
    rw [hname, List.cons_append] at hread
    rw [htext, readAll, hname, List.cons_append, skipSpace_space hsolid]
    simp only [hread]
    rw [← hname, hfound, List.reverse_cons, List.append_assoc, List.singleton_append]

end Attributes

/-- The field of an attribute: its name after a sign, which no name of an element has. -/
def attributeField (a : String × String) : String × Value := ("@" ++ a.1, .string a.2)

def Element.ofTag (name : String) (attributes : List (String × String)) : Element :=
  ⟨name, attributes.map attributeField, ""⟩

section Elements
variable {name : String} {attributes : List (String × String)}

private theorem attributeKey_injective : Function.Injective fun a : String => "@" ++ a := by
  intro a b h
  have hlist := congrArg String.toList h
  simp only [String.toList_append] at hlist
  exact String.toList_inj.mp (List.append_cancel_left hlist)

private theorem foldlM_fields {found : List Attribute}
    (hfound : found.map (fun b => (b.key, b.value)) =
      attributes.map fun a => (a.1.toList, escaped a.2.toList)) {before : Fields}
    (distinct : (before.map Prod.fst ++ attributes.map fun a => "@" ++ a.1).Nodup) :
    (found.foldlM (fun fields a => do
      let value ← textOf .xml a.value
      return Fields.insert fields ("@" ++ nameOf .xml a.key) (.string (String.ofList value)))
        before : Except Fault Fields) = .ok (before ++ attributes.map attributeField) := by
  induction attributes generalizing found before with
  | nil =>
    obtain rfl : found = [] := List.map_eq_nil_iff.mp hfound
    rw [List.map_nil, List.append_nil]
    rfl
  | cons a attributes ih =>
    obtain ⟨b, found, rfl, hb, hmore⟩ := List.map_eq_cons_iff.mp hfound
    obtain ⟨hkey, hvalue⟩ := Prod.mk.inj hb
    have hname : nameOf .xml b.key = a.1 := by rw [hkey, nameOf, String.ofList_toList]
    have hnew : "@" ++ a.1 ∉ before.map Prod.fst := fun hmem =>
      (List.nodup_append.mp distinct).2.2 _ hmem _ List.mem_cons_self rfl
    have hinsert : Fields.insert before ("@" ++ a.1) (.string (String.ofList a.2.toList)) =
        before ++ [attributeField a] := by
      rw [Fields.insert_of_notMem _ hnew, String.ofList_toList]
      rfl
    have distinct' : ((before ++ [attributeField a]).map Prod.fst ++
        attributes.map fun a => "@" ++ a.1).Nodup := by
      simpa [attributeField] using distinct
    have hrest := ih hmore distinct'
    rw [List.foldlM_cons, hvalue, textOf_escaped, hname]
    simp only [bind, Except.bind, pure, Except.pure, hinsert] at hrest ⊢
    rw [hrest, List.append_assoc, List.map_cons, List.singleton_append]

/-- The element of a tag has its name and its attributes in order. -/
theorem elementOf_tagText (h : IsTag name attributes) :
    elementOf .xml (tagText name attributes) = .ok (Element.ofTag name attributes) := by
  have hsplit : splitName (tagText name attributes) =
      (name.toList, ⟨0 + byteCount name.toList, attributes.flatMap attributeText⟩) := by
    refine splitBefore_append (fun c hc => isSpace_of_isNameChar (isNameChar_of_mem h.name hc)) ?_ 0
    cases attributes with
    | nil => simp
    | cons a attributes => simp [attributeText, isSpace]
  have enough : attributes.length < (attributes.flatMap attributeText).length + 1 := by
    have hsum := List.length_le_sum_of_one_le (attributes.map fun a => (attributeText a).length)
      (List.forall_mem_map.mpr fun a _ => Nat.succ_pos _)
    rw [List.length_map, ← List.length_flatMap] at hsum
    exact Nat.lt_succ_of_le hsum
  obtain ⟨found, hread, hfound⟩ := readAll_attributes h.names h.distinct (List.forall_mem_nil _)
    enough (0 + byteCount name.toList)
  have hkeys : (([] : Fields).map Prod.fst ++ attributes.map fun a => "@" ++ a.1).Nodup := by
    have hmap := List.Nodup.map attributeKey_injective h.distinct
    rwa [List.map_map] at hmap
  have hfields := foldlM_fields hfound hkeys
  simp only [elementOf, hsplit, Markup.attributes, hread, List.reverse_nil, List.nil_append]
  rw [hfields]
  simp [bind, Except.bind, pure, Except.pure, Element.ofTag, nameOf]

end Elements

section Events
variable {name : String} {attributes : List (String × String)} (rest : List Char)

private theorem getLast?_tagText (h : isName name = true) :
    (tagText name attributes).getLast? ≠ some '/' := by
  rcases List.eq_nil_or_concat attributes with rfl | ⟨init, a, rfl⟩
  · intro hlast
    rw [tagText, List.flatMap_nil, List.append_nil] at hlast
    exact ne_of_isNameChar (isNameChar_of_mem h (List.mem_of_getLast? hlast)) rfl rfl
  · have htext : tagText name (init.concat a) = (name.toList ++ (init.flatMap attributeText ++
        ' ' :: (a.1.toList ++ '=' :: '"' :: escaped a.2.toList))) ++ ['"'] := by
      simp [tagText, attributeText]
    rw [htext, List.getLast?_concat]
    decide

private theorem readTag_name (h : isName name = true) {text tag rest : List Char}
    (hsplit : splitTag? none [] (name.toList ++ text) = some (tag, rest)) :
    readTag (name.toList ++ text) =
      if tag.getLast? = some '/' then some (.empty tag.dropLast, rest)
      else some (.opening tag, rest) := by
  obtain ⟨first, more, hname, -⟩ := isName_cases h
  have hfirst : isNameChar first = true := isNameChar_of_mem h (hname ▸ List.mem_cons_self)
  have hbang := ne_of_isNameChar hfirst (d := '!') rfl
  have hslash := ne_of_isNameChar hfirst (d := '/') rfl
  have hquery := ne_of_isNameChar hfirst (d := '?') rfl
  rw [hname, List.cons_append] at hsplit ⊢
  rw [readTag.eq_def]
  split <;> simp_all

theorem next?_opening (h : IsTag name attributes) :
    next? ('<' :: (tagText name attributes ++ '>' :: rest)) =
      some (.opening (tagText name attributes), rest) := by
  have hsplit : splitTag? none [] (tagText name attributes ++ '>' :: rest) =
      some (tagText name attributes, rest) := by
    rw [passes_tagText h, List.append_nil, splitTag?]
    simp
  have hlast : (tagText name attributes).getLast? ≠ some '/' := getLast?_tagText h.name
  rw [tagText, List.append_assoc] at hsplit
  have hread := readTag_name h.name hsplit
  rw [← tagText, if_neg hlast] at hread
  rw [tagText, List.append_assoc]
  exact hread

theorem next?_empty (h : IsTag name attributes) :
    next? ('<' :: (tagText name attributes ++ '/' :: '>' :: rest)) =
      some (.empty (tagText name attributes), rest) := by
  have hsplit : splitTag? none [] (tagText name attributes ++ '/' :: '>' :: rest) =
      some (tagText name attributes ++ ['/'], rest) := by
    rw [passes_tagText h, List.append_nil, splitTag?]
    simp [splitTag?]
  rw [tagText, List.append_assoc] at hsplit
  have hread := readTag_name h.name hsplit
  rw [List.getLast?_concat, if_pos rfl, List.dropLast_concat] at hread
  rw [tagText, List.append_assoc]
  exact hread

theorem next?_closing (h : isName name = true) :
    next? ('<' :: '/' :: (name.toList ++ '>' :: rest)) = some (.closing name.toList, rest) := by
  have hend : ∀ c ∈ name.toList, decide (c ≠ '>') = true := fun c hc =>
    decide_eq_true (ne_of_isNameChar (isNameChar_of_mem h hc) rfl)
  have hsplit : splitEnd (name.toList ++ '>' :: rest) = (name.toList, rest) := by
    rw [splitEnd, List.takeWhile_append_of_pos hend, List.dropWhile_append_of_pos hend]
    simp
  have hread : readTag ('/' :: (name.toList ++ '>' :: rest)) = some (.closing name.toList, rest) := by
    rw [readTag, hsplit]
  exact hread

end Events

end Tabulate.Markup

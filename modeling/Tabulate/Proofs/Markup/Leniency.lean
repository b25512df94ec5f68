import Tabulate.Markup.Tree
import Tabulate.Proofs.Outcomes

/-! What is accepted as XML is read as HTML into the same value, unless case or the elements without
content set the two apart. -/
namespace Tabulate.Markup

def IsLower (name : String) : Prop := Unicode.lower name = name

instance (name : String) : Decidable (IsLower name) := inferInstanceAs (Decidable (_ = _))

def tagName (tag : List Char) : String := String.ofList (splitName tag).1

def attributeNames (tag : List Char) : List String :=
  (attributes .xml (splitName tag).2).1.map fun a => String.ofList a.key

namespace Event

def names : Event → List String
  | opening tag | empty tag => tagName tag :: attributeNames tag
  | closing _ | text _ | cdata _ | aside | broken _ => []

def opensVoid : Event → Bool
  | opening tag => tagName tag ∈ voidElements
  | empty _ | closing _ | text _ | cdata _ | aside | broken _ => false

end Event

section Attributes
open Content

private theorem readValue_covers (c : Content) : Covers (readValue .html c) (readValue .xml c) := by
  unfold readValue
  generalize c.skipSpace = c
  rcases c with ⟨position, _ | ⟨first, more⟩⟩
  · exact .of_error _ _
  · dsimp only
    by_cases quote : first = '"' ∨ first = '\''
    · rw [if_pos quote, if_pos quote]
      exact .refl _
    · rw [if_neg quote, if_neg quote]
      exact .of_error _ _

private theorem readAttribute_covers (isNew : Attribute → Except AttributeFault Unit) (first : Char)
    (c : Content) : Covers (readAttribute .html isNew first c) (readAttribute .xml isNew first c) := by
  intro r hr
  unfold readAttribute at hr ⊢
  generalize Content.splitBefore (fun c => c = '=' || isSpace c)
    ⟨c.position + first.utf8Size, c.text.tail⟩ = key at hr ⊢
  obtain ⟨more, after⟩ := key
  dsimp only at hr ⊢
  split at hr
  next htext =>
    rw [htext]
    refine Covers.bind (.refl (isNew _)) (fun _ _ => ?_) r hr
    exact (readValue_covers _).bind fun _ _ => .refl _
  next => contradiction
  next => contradiction

private theorem readAll_html {fuel : Nat} {before found : List Attribute} {c : Content}
    (h : readAll .xml fuel before c = (found, none)) : readAll .html fuel before c = (found, none) := by
  induction fuel generalizing before c with
  | zero => exact h
  | succ fuel ih =>
    unfold readAll at h ⊢
    dsimp only at h ⊢
    split at h
    next => exact h
    next first more htext =>
      cases hread : readAttribute .xml (checkNew before) first c.skipSpace with
      | error fault =>
        rw [hread] at h
        simp at h
      | ok next =>
        rw [hread] at h
        rw [readAttribute_covers _ _ _ _ hread]
        exact ih h

private theorem attributes_html {c : Content} {found : List Attribute}
    (h : attributes .xml c = (found, none)) : attributes .html c = (found, none) :=
  readAll_html h

end Attributes

section Elements
variable {tag : List Char}

private theorem textOf_covers (raw : List Char) : Covers (textOf .html raw) (textOf .xml raw) := by
  unfold textOf
  cases unescape raw with
  | ok text => exact .refl _
  | error fault => exact .of_error _ _

private theorem elementOf_covers (lower : ∀ name ∈ tagName tag :: attributeNames tag, IsLower name) :
    Covers (elementOf .html tag) (elementOf .xml tag) := by
  obtain ⟨hname, hkeys⟩ := List.forall_mem_cons.mp lower
  rw [attributeNames, List.forall_mem_map] at hkeys
  rw [tagName] at hname
  unfold elementOf
  generalize splitName tag = parts at hname hkeys ⊢
  obtain ⟨name, content⟩ := parts
  intro e he
  dsimp only at he hname hkeys ⊢
  generalize hread : attributes .xml content = read at he hkeys
  obtain ⟨before, fault⟩ := read
  cases fault with
  | some fault =>
    obtain ⟨_, -, hthrow⟩ := exists_of_bind_eq_ok he
    contradiction
  | none =>
    have hfields : ∀ a ∈ before, nameOf .html a.key = nameOf .xml a.key := hkeys
    rw [attributes_html hread]
    refine Covers.bind ?_ (fun fields _ => ?_) e he
    · refine Covers.foldlM (fun _ => True) (fun a ha fields _ => ⟨?_, fun _ _ => trivial⟩) trivial
      rw [hfields a ha]
      exact (textOf_covers _).bind fun _ _ => .refl _
    · dsimp only [nameOf]
      rw [hname]
      exact .refl _

private theorem name_elementOf {e : Element} (h : elementOf .xml tag = .ok e) : e.name = tagName tag := by
  unfold elementOf at h
  rw [tagName]
  generalize splitName tag = parts at h ⊢
  obtain ⟨name, content⟩ := parts
  dsimp only at h ⊢
  generalize attributes .xml content = read at h
  obtain ⟨before, fault⟩ := read
  cases fault with
  | some fault =>
    obtain ⟨_, -, hthrow⟩ := exists_of_bind_eq_ok h
    contradiction
  | none =>
    obtain ⟨fields, -, hdone⟩ := exists_of_bind_eq_ok h
    cases hdone
    rfl

end Elements

namespace Opened

def IsLower (s : Opened) : Prop := ∀ e ∈ s.top :: s.below, Markup.IsLower e.name

private theorem isLower_document : document.IsLower := by
  intro e he
  obtain rfl := List.mem_singleton.mp he
  rfl

variable {s : Opened}

theorem IsLower.push (h : s.IsLower) {e : Element} (he : Markup.IsLower e.name) : (s.push e).IsLower :=
  List.forall_mem_cons.mpr ⟨he, h⟩

/-- Only the name of the innermost element matters to a change of it. -/
theorem IsLower.withTop (h : s.IsLower) {e : Element} (he : e.name = s.top.name) :
    (⟨e, s.below⟩ : Opened).IsLower := by
  obtain ⟨htop, hbelow⟩ := List.forall_mem_cons.mp h
  exact List.forall_mem_cons.mpr ⟨he ▸ htop, hbelow⟩

end Opened

section Runs
variable {s : Opened}

theorem Element.name_addText (e : Element) (text : List Char) : (e.addText text).name = e.name := by
  unfold Element.addText
  split <;> rfl

/-- A strict end tag is that of the innermost element. -/
theorem close_xml_cases {content : List Char} {next : Opened}
    (h : close .xml s content = .ok next) :
    ∃ top parent below, s = ⟨top, parent :: below⟩ ∧ top.name = nameOf .xml (closingName content) ∧
      next = ⟨parent.addChild top, below⟩ := by
  obtain ⟨top, _ | ⟨parent, below⟩⟩ := s
  · contradiction
  · by_cases hname : top.name = nameOf .xml (closingName content)
    · simp only [close, if_pos hname] at h
      cases h
      exact ⟨top, parent, below, rfl, hname, rfl⟩
    · simp only [close, if_neg hname] at h
      contradiction

private theorem close_html {content : List Char} {top parent : Element} {below : List Element}
    (h : nameOf .html (closingName content) = top.name) :
    close .html ⟨top, parent :: below⟩ content = .ok ⟨parent.addChild top, below⟩ := by
  rw [close]
  simp only [h, Opened.closeThrough?, if_true, Option.getD_some]

private theorem takeEvent_covers (h : s.IsLower) {e : Event} (lower : ∀ name ∈ e.names, IsLower name)
    (noVoid : e.opensVoid = false) : Covers (takeEvent .html s e) (takeEvent .xml s e) := by
  cases e with
  | opening tag =>
    have hvoid : tagName tag ∉ voidElements := of_decide_eq_false noVoid
    refine (elementOf_covers lower).bind fun e he => ?_
    rw [if_neg (fun void => hvoid (name_elementOf he ▸ void.2)), if_neg (fun void => nomatch void.1)]
    exact .refl _
  | empty tag => exact (elementOf_covers lower).bind fun _ _ => .refl _
  | closing content =>
    intro next hnext
    obtain ⟨top, parent, below, rfl, hname, rfl⟩ := close_xml_cases hnext
    have htop : IsLower top.name := h top List.mem_cons_self
    refine close_html ?_
    rw [hname] at htop ⊢
    exact htop
  | text raw => exact (textOf_covers raw).bind fun _ _ => .refl _
  | cdata text => exact .refl _
  | aside => exact .refl _
  | broken fault => exact .of_error _ _

private theorem isLower_takeEvent (h : s.IsLower) {e : Event} (lower : ∀ name ∈ e.names, IsLower name)
    {next : Opened} (hnext : takeEvent .xml s e = .ok next) : next.IsLower := by
  cases e with
  | opening tag =>
    have hname : IsLower (tagName tag) := lower _ List.mem_cons_self
    obtain ⟨e, he, hpush⟩ := exists_of_bind_eq_ok hnext
    cases hpush
    exact h.push (name_elementOf he ▸ hname)
  | empty tag =>
    obtain ⟨e, -, hattach⟩ := exists_of_bind_eq_ok hnext
    cases hattach
    exact h.withTop rfl
  | closing content =>
    obtain ⟨top, parent, below, rfl, -, rfl⟩ := close_xml_cases hnext
    exact Opened.IsLower.withTop (s := ⟨parent, below⟩) (List.forall_mem_cons.mp h).2 rfl
  | text raw =>
    obtain ⟨text, -, hadd⟩ := exists_of_bind_eq_ok hnext
    cases hadd
    exact h.withTop (s.top.name_addText text)
  | cdata text =>
    cases hnext
    exact h.withTop (s.top.name_addText text)
  | aside =>
    cases hnext
    exact h
  | broken fault => contradiction

/-- A run over events in lower case without open void elements ends in the same open elements. -/
theorem assemble_covers {ms : List Mark} (lower : ∀ m ∈ ms, ∀ name ∈ m.event.names, IsLower name)
    (noVoid : ∀ m ∈ ms, m.event.opensVoid = false) :
    Covers (assemble .html ms) (assemble .xml ms) := by
  refine Covers.foldlM Opened.IsLower (fun m hm s hs => ?_) Opened.isLower_document
  exact ⟨(takeEvent_covers hs (lower m hm) (noVoid m hm)).mapError _,
    fun next hnext => isLower_takeEvent hs (lower m hm) (eq_ok_of_mapError hnext)⟩

end Runs

/-- What is accepted as XML is read as HTML into the same value, if the names of elements and
attributes are in lower case and no tag opens an element that never has content in HTML. -/
theorem read_html_of_xml {text : String} {v : Value} (h : read .xml text = .ok v)
    (lower : ∀ m ∈ marks text.toList, ∀ name ∈ m.event.names, IsLower name)
    (noVoid : ∀ m ∈ marks text.toList, m.event.opensVoid = false) : read .html text = .ok v := by
  have hread : Covers (read .html text) (read .xml text) := by
    refine (assemble_covers lower noVoid).bind fun s _ => ?_
    obtain ⟨top, _ | ⟨parent, below⟩⟩ := s
    · exact .refl _
    · exact .of_error _ _
  exact hread v h

/-- Two outermost elements with references, a comment, a text as it stands and an empty void element. -/
theorem read_html_of_xml_mixed :
    let text := "<a x='1&amp;2'>t<br/>u</a><!-- <B> --><b><![CDATA[<&]]></b >"
    let v : Value := .object [
      ("a", .object [("@x", .string "1&2"), ("br", .string ""), ("#text", .string "t u")]),
      ("b", .string "<&")]
    read .xml text = .ok v ∧ (∀ m ∈ marks text.toList, ∀ name ∈ m.event.names, IsLower name) ∧
      (∀ m ∈ marks text.toList, m.event.opensVoid = false) ∧ read .html text = .ok v := by
  intro text v
  have h : read .xml text = .ok v := by decide +kernel
  have lower : ∀ m ∈ marks text.toList, ∀ name ∈ m.event.names, IsLower name := by decide +kernel
  have noVoid : ∀ m ∈ marks text.toList, m.event.opensVoid = false := by decide +kernel
  exact ⟨h, lower, noVoid, read_html_of_xml h lower noVoid⟩

end Tabulate.Markup

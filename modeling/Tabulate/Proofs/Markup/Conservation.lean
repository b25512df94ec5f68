import Mathlib.Algebra.GroupWithZero.Nat
import Tabulate.Proofs.Markup.Document
import Tabulate.Proofs.Markup.Leniency

/-! Each tag that opens an element adds one element to what is read, wherever the element is closed. The
document itself is closed by the end of a text alone. -/
namespace Tabulate.Markup

/-- A key that child elements may stand under: the others are those of attributes and of the text. -/
def IsTagKey (key : String) : Prop := key ≠ "#text" ∧ key.toList.head? ≠ some '@'

instance (key : String) : Decidable (IsTagKey key) := inferInstanceAs (Decidable (_ ∧ _))

section Counting

/-- The number of elements that the value of a key is: each item of an array is one. -/
def standing : Value → Nat
  | .array items => items.length
  | _ => 1

mutual

def elementsIn : Value → Nat
  | .object fields => elementsOfFields fields
  | .array items => elementsOfItems items
  | .null | .bool _ | .number _ | .string _ => 0

def elementsOfFields : List (String × Value) → Nat
  | [] => 0
  | (key, value) :: rest =>
    (if IsTagKey key then standing value + elementsIn value else 0) + elementsOfFields rest

def elementsOfItems : List Value → Nat
  | [] => 0
  | item :: rest => elementsIn item + elementsOfItems rest

end

def elementsUnder (key : String) (value : Value) : Nat :=
  if IsTagKey key then standing value + elementsIn value else 0

private theorem elementsUnder_of_not {key : String} (h : ¬ IsTagKey key) (value : Value) :
    elementsUnder key value = 0 :=
  if_neg h

private theorem elementsOfFields_cons (key : String) (value : Value) (rest : Fields) :
    elementsOfFields ((key, value) :: rest) = elementsUnder key value + elementsOfFields rest := by
  rw [elementsOfFields, elementsUnder]

private theorem elementsOfItems_concat (items : List Value) (item : Value) :
    elementsOfItems (items ++ [item]) = elementsOfItems items + elementsIn item := by
  induction items with
  | nil => simp [elementsOfItems]
  | cons first items ih => rw [List.cons_append, elementsOfItems, ih, elementsOfItems, Nat.add_assoc]

/-- A field that is written takes the place of the one under its key. -/
theorem elementsOfFields_insert (fields : Fields) (key : String) (value : Value) :
    elementsOfFields (Fields.insert fields key value) + ((Fields.get? fields key).map (elementsUnder key)).getD 0 =
      elementsOfFields fields + elementsUnder key value := by
  induction fields with
  | nil => simp [Fields.insert, Fields.get?, elementsOfFields, elementsOfFields_cons]
  | cons field rest ih =>
    obtain ⟨name, old⟩ := field
    rw [Fields.get?_cons, Fields.insert, elementsOfFields_cons]
    split
    next h =>
      subst h
      rw [elementsOfFields_cons, Option.map_some, Option.getD_some]
      dsimp only
      omega
    next =>
      rw [elementsOfFields_cons]
      omega

/-- A value beside others of its tag is one element more. -/
theorem elements_beside {v : Value} (single : IsSingle v) (old : Option Value) :
    standing (Element.beside old v) + elementsIn (Element.beside old v) =
      (old.map fun o => standing o + elementsIn o).getD 0 + 1 + elementsIn v := by
  have hv : standing v = 1 := by
    cases v with
    | array => exact single.elim
    | _ => rfl
  cases old with
  | none => simp [Element.beside, hv]
  | some old =>
    cases old with
    | array items =>
      simp only [Element.beside, standing, elementsIn, elementsOfItems_concat, List.length_append,
        List.length_singleton, Option.map_some, Option.getD_some]
      omega
    | _ =>
      simp only [Element.beside, standing, elementsIn, elementsOfItems, List.length_cons, List.length_nil,
        Option.map_some, Option.getD_some]
      omega

end Counting

namespace Element

private theorem isSingle_value (e : Element) : IsSingle e.value := by
  unfold value
  split
  · trivial
  · split <;> trivial

/-- The text of an element is none of its children. -/
theorem elementsIn_value (e : Element) : elementsIn e.value = elementsOfFields e.fields := by
  have htext (v : Value) : elementsUnder "#text" v = 0 := elementsUnder_of_not (by decide) v
  unfold value
  split
  next none =>
    rw [List.isEmpty_iff.mp none, elementsIn, elementsOfFields]
  next =>
    split
    · rw [elementsIn]
    · have hinsert := elementsOfFields_insert e.fields "#text" (.string e.text)
      have hold : ((Fields.get? e.fields "#text").map (elementsUnder "#text")).getD 0 = 0 := by
        cases Fields.get? e.fields "#text" with
        | none => rfl
        | some v => exact htext v
      rw [elementsIn]
      rw [hold, htext] at hinsert
      omega

private theorem fields_addText (e : Element) (text : List Char) : (e.addText text).fields = e.fields := by
  unfold addText
  split <;> rfl

/-- A child is one element more, besides those inside it. -/
theorem elementsOfFields_addChild (e : Element) {child : Element} (h : IsTagKey child.name) :
    elementsOfFields (e.addChild child).fields =
      elementsOfFields e.fields + 1 + elementsOfFields child.fields := by
  have hinsert := elementsOfFields_insert e.fields child.name
    (beside (Fields.get? e.fields child.name) child.value)
  have hbeside := elements_beside child.isSingle_value (Fields.get? e.fields child.name)
  have hunder : elementsUnder child.name = fun v => standing v + elementsIn v := funext fun v => if_pos h
  rw [hunder] at hinsert
  rw [elementsIn_value] at hbeside
  rw [addChild]
  dsimp only at hinsert hbeside ⊢
  omega

inductive Grows (e : Element) : Element → Prop
  | refl : Grows e e
  | text {grown : Element} (text : List Char) : Grows e grown → Grows e (grown.addText text)
  | child {grown : Element} (child : Element) : Grows e grown → Grows e (grown.addChild child)

theorem Grows.trans {e f g : Element} (h : e.Grows f) (next : f.Grows g) : e.Grows g := by
  induction next with
  | refl => exact h
  | text text _ ih => exact ih.text text
  | child child _ ih => exact ih.child child

end Element

def Event.elementName? (language : Language) : Event → Option String
  | .opening tag | .empty tag => some (nameOf language (splitName tag).1)
  | .closing _ | .text _ | .cdata _ | .aside | .broken _ => none

def elementNames (language : Language) (ms : List Mark) : List String :=
  ms.filterMap fun m => m.event.elementName? language

/-- The element of a tag has its name, and nothing but attributes in it. -/
theorem elementOf_eq_ok {language : Language} {tag : List Char} {e : Element}
    (h : elementOf language tag = .ok e) :
    e.name = nameOf language (splitName tag).1 ∧ elementsOfFields e.fields = 0 := by
  unfold elementOf at h
  generalize splitName tag = parts at h ⊢
  obtain ⟨name, content⟩ := parts
  dsimp only at h ⊢
  generalize attributes language content = read at h
  obtain ⟨before, fault⟩ := read
  obtain ⟨fields, hfields, h⟩ := exists_of_bind_eq_ok h
  have hnone : elementsOfFields fields = 0 := by
    refine foldlM_keeps (P := fun fields => elementsOfFields fields = 0) (fun a _ fields next hf hnext => ?_)
      rfl hfields
    obtain ⟨value, -, hinsert⟩ := exists_of_bind_eq_ok hnext
    cases hinsert
    have hkey : ¬ IsTagKey ("@" ++ nameOf language a.key) := fun hkey => hkey.2 (by simp)
    have hsum := elementsOfFields_insert fields ("@" ++ nameOf language a.key) (.string (String.ofList value))
    rw [elementsUnder_of_not hkey] at hsum
    omega
  cases fault with
  | some fault => contradiction
  | none =>
    cases h
    exact ⟨rfl, hnone⟩

namespace Opened

/-- The element that is open longest. -/
def bottom (s : Opened) : Element := s.below.getLastD s.top

def elements (s : Opened) : Nat :=
  s.below.length + ((s.top :: s.below).map fun e => elementsOfFields e.fields).sum

def IsTagged (s : Opened) : Prop := ∀ e ∈ (s.top :: s.below).dropLast, IsTagKey e.name

/-- So many elements are added to those that are read, and the document stays open. -/
structure Gains (s next : Opened) (count : Nat) : Prop where
  tagged : next.IsTagged
  elements : next.elements = s.elements + count
  bottom : s.bottom.Grows next.bottom

section Steps
variable {s next : Opened} {top parent child : Element} {below : List Element}

private theorem isTagged_cons (h : (⟨top, parent :: below⟩ : Opened).IsTagged) :
    IsTagKey top.name ∧ (⟨parent, below⟩ : Opened).IsTagged :=
  List.forall_mem_cons.mp h

private theorem elements_cons (top parent : Element) (below : List Element) :
    (⟨top, parent :: below⟩ : Opened).elements =
      1 + elementsOfFields top.fields + (⟨parent, below⟩ : Opened).elements := by
  simp only [elements, List.length_cons, List.map_cons, List.sum_cons]
  omega

private theorem bottom_cons (top parent : Element) (below : List Element) :
    (⟨top, parent :: below⟩ : Opened).bottom = (⟨parent, below⟩ : Opened).bottom :=
  List.getLastD_cons ..

/-- The innermost element changes, and nothing else. -/
theorem Gains.withTop {e : Element} {count : Nat} (h : (⟨top, below⟩ : Opened).IsTagged) (hname : e.name = top.name)
    (helements : elementsOfFields e.fields = elementsOfFields top.fields + count) (hgrows : top.Grows e) :
    Gains ⟨top, below⟩ ⟨e, below⟩ count := by
  refine ⟨?_, ?_, ?_⟩
  · cases below with
    | nil => exact nofun
    | cons parent below => exact List.forall_mem_cons.mpr ⟨hname ▸ (isTagged_cons h).1, (isTagged_cons h).2⟩
  · simp only [Opened.elements, List.map_cons, List.sum_cons, helements]
    omega
  · cases below with
    | nil => exact hgrows
    | cons parent below =>
      rw [bottom_cons, bottom_cons]
      exact .refl

theorem Gains.trans {s next final : Opened} {count more : Nat} (h : Gains s next count) (hmore : Gains next final more) :
    Gains s final (count + more) :=
  ⟨hmore.tagged, by rw [hmore.elements, h.elements, Nat.add_assoc], h.bottom.trans hmore.bottom⟩

private theorem gains_addText (h : s.IsTagged) (text : List Char) : Gains s (s.addText text) 0 :=
  .withTop h (s.top.name_addText text) (by rw [Element.fields_addText]; rfl) (.text text .refl)

/-- An element without children is attached. -/
theorem gains_attach (h : s.IsTagged) (hchild : IsTagKey child.name) (empty : elementsOfFields child.fields = 0) :
    Gains s (s.attach child) 1 := by
  refine .withTop h rfl ?_ (.child child .refl)
  rw [Element.elementsOfFields_addChild _ hchild, empty]

private theorem gains_push (h : s.IsTagged) (hchild : IsTagKey child.name)
    (empty : elementsOfFields child.fields = 0) : Gains s (s.push child) 1 := by
  refine ⟨List.forall_mem_cons.mpr ⟨hchild, h⟩, ?_, ?_⟩
  · rw [push, elements_cons, empty]
    exact Nat.add_comm _ _
  · rw [push, bottom_cons]
    exact .refl

/-- The innermost element is closed: it is counted inside the one around it. -/
theorem gains_close (h : (⟨top, parent :: below⟩ : Opened).IsTagged) :
    Gains ⟨top, parent :: below⟩ ⟨parent.addChild top, below⟩ 0 := by
  obtain ⟨htop, hbelow⟩ := isTagged_cons h
  have hadd : Gains ⟨parent, below⟩ ⟨parent.addChild top, below⟩ (1 + elementsOfFields top.fields) := by
    refine .withTop hbelow rfl ?_ (.child top .refl)
    rw [Element.elementsOfFields_addChild _ htop, Nat.add_assoc]
  refine ⟨hadd.tagged, ?_, ?_⟩
  · rw [hadd.elements, elements_cons]
    omega
  · rw [bottom_cons]
    exact hadd.bottom

private theorem gains_closeThrough {name : String} (h : (⟨top, below⟩ : Opened).IsTagged)
    (hclose : closeThrough? name top below = some next) : Gains ⟨top, below⟩ next 0 := by
  induction below generalizing top with
  | nil => contradiction
  | cons parent below ih =>
    have hfirst := gains_close h
    rw [closeThrough?] at hclose
    split at hclose
    · cases hclose
      exact hfirst
    · exact hfirst.trans (ih hfirst.tagged hclose)

private theorem gains_closeAll (h : (⟨top, below⟩ : Opened).IsTagged) :
    Gains ⟨top, below⟩ ⟨closeAll top below, []⟩ 0 := by
  induction below generalizing top with
  | nil => exact .withTop h rfl rfl .refl
  | cons parent below ih =>
    have hfirst := gains_close h
    exact hfirst.trans (ih hfirst.tagged)

/-- A closing tag closes elements in the document and never the document. -/
theorem gains_closing {language : Language} (h : s.IsTagged) {content : List Char}
    (hclose : close language s content = .ok next) : Gains s next 0 := by
  obtain ⟨top, below⟩ := s
  cases language with
  | html =>
    cases hclose
    cases hthrough : closeThrough? (nameOf .html (closingName content)) top below with
    | none => exact .withTop h rfl rfl .refl
    | some next => exact gains_closeThrough h hthrough
  | xml =>
    obtain ⟨top, parent, below, heq, -, rfl⟩ := close_xml_cases hclose
    cases heq
    exact gains_close h

end Steps

section Runs
variable {language : Language} {s next final : Opened}

/-- One event adds the element that it opens. -/
theorem gains_takeEvent (h : s.IsTagged) {e : Event} (tagged : ∀ name ∈ e.elementName? language, IsTagKey name)
    (hnext : takeEvent language s e = .ok next) : Gains s next (e.elementName? language).toList.length := by
  cases e with
  | opening tag =>
    obtain ⟨e, he, hopen⟩ := exists_of_bind_eq_ok hnext
    obtain ⟨hname, empty⟩ := elementOf_eq_ok he
    have hkey : IsTagKey e.name := hname ▸ tagged _ rfl
    split at hopen
    all_goals cases hopen
    · exact gains_attach h hkey empty
    · exact gains_push h hkey empty
  | empty tag =>
    obtain ⟨e, he, hattach⟩ := exists_of_bind_eq_ok hnext
    obtain ⟨hname, empty⟩ := elementOf_eq_ok he
    cases hattach
    exact gains_attach h (hname ▸ tagged _ rfl) empty
  | closing content => exact gains_closing h hnext
  | text raw =>
    obtain ⟨text, -, hadd⟩ := exists_of_bind_eq_ok hnext
    cases hadd
    exact gains_addText h text
  | cdata text =>
    cases hnext
    exact gains_addText h text
  | aside =>
    cases hnext
    exact .withTop h rfl rfl .refl
  | broken fault => contradiction

/-- The events of a run add the elements that they open. -/
theorem gains_assemble {ms : List Mark} (h : s.IsTagged) (tagged : ∀ name ∈ elementNames language ms, IsTagKey name)
    (hrun : ms.foldlM (fun s m => (takeEvent language s m.event).mapError
      (fun fault => (⟨m.position, fault⟩ : SyntaxError))) s = .ok final) :
    Gains s final (elementNames language ms).length := by
  induction ms generalizing s with
  | nil =>
    cases hrun
    exact .withTop h rfl rfl .refl
  | cons m ms ih =>
    obtain ⟨next, hnext, hrun⟩ := exists_of_bind_eq_ok hrun
    have hnames : elementNames language (m :: ms) =
        (m.event.elementName? language).toList ++ elementNames language ms := by
      rw [elementNames, List.filterMap_cons]
      cases m.event.elementName? language <;> rfl
    rw [hnames] at tagged ⊢
    obtain ⟨hfirst, hmore⟩ := List.forall_mem_append.mp tagged
    have hgain := gains_takeEvent h (fun name hname => hfirst name (Option.mem_toList.mpr hname))
      (eq_ok_of_mapError hnext)
    rw [List.length_append]
    exact hgain.trans (ih hgain.tagged hmore hrun)

end Runs
end Opened

section Reading
variable {language : Language} {text : String} {v : Value}

private theorem exists_of_read_eq_ok (h : read language text = .ok v) :
    ∃ s, assemble language (marks text.toList) = .ok s ∧
      v = .object (Opened.closeAll s.top s.below).fields := by
  obtain ⟨s, hs, h⟩ := exists_of_bind_eq_ok h
  split at h
  · contradiction
  · cases h
    exact ⟨s, hs, rfl⟩

/-- The value of a text holds one element for each tag that opens one. After any of its events the document
is open, and is the one that becomes the value. -/
theorem read_conserves (h : read language text = .ok v)
    (tagged : ∀ name ∈ elementNames language (marks text.toList), IsTagKey name) :
    elementsIn v = (elementNames language (marks text.toList)).length ∧
      ∀ before after, marks text.toList = before ++ after →
        ∃ s document, assemble language before = .ok s ∧ Opened.document.bottom.Grows s.bottom ∧
          s.bottom.Grows document ∧ v = .object document.fields := by
  obtain ⟨final, hfinal, rfl⟩ := exists_of_read_eq_ok h
  have start : Opened.document.IsTagged := nofun
  have hclose {s : Opened} (hs : s.IsTagged) : Opened.Gains s ⟨Opened.closeAll s.top s.below, []⟩ 0 :=
    Opened.gains_closeAll hs
  refine ⟨?_, fun before after hsplit => ?_⟩
  · have hrun := Opened.gains_assemble start tagged hfinal
    have hall := hrun.trans (hclose hrun.tagged)
    have helements := hall.elements
    rw [elementsIn]
    simpa [Opened.elements, Opened.document, elementsOfFields] using helements
  · rw [hsplit] at hfinal tagged
    rw [assemble, List.foldlM_append] at hfinal
    obtain ⟨s, hs, hafter⟩ := exists_of_bind_eq_ok hfinal
    rw [elementNames, List.filterMap_append, List.forall_mem_append] at tagged
    have hbefore := Opened.gains_assemble start tagged.1 hs
    have hrest := Opened.gains_assemble hbefore.tagged tagged.2 hafter
    exact ⟨s, _, hs, hbefore.bottom, (hrest.trans (hclose hrest.tagged)).bottom, rfl⟩

/-- Nested items without closing tags, closing tags that close several elements and none, an element without
content, and two of one tag. -/
theorem read_conserves_unclosed :
    let text := "<ul><li>a<li>b<br></b></ul></ul><p/><p>"
    let v : Value := .object [
      ("ul", .object [("li", .object [
        ("li", .object [("br", .string ""), ("#text", .string "b")]), ("#text", .string "a")])]),
      ("p", .array [.string "", .string ""])]
    read .html text = .ok v ∧ (∀ name ∈ elementNames .html (marks text.toList), IsTagKey name) ∧
      elementNames .html (marks text.toList) = ["ul", "li", "li", "br", "p", "p"] ∧ elementsIn v = 6 ∧
      ∃ s document, assemble .html ((marks text.toList).take 5) = .ok s ∧
        Opened.document.bottom.Grows s.bottom ∧ s.bottom.Grows document ∧ v = .object document.fields := by
  intro text v
  have h : read .html text = .ok v := by decide +kernel
  have tagged : ∀ name ∈ elementNames .html (marks text.toList), IsTagKey name := by decide
  have names : elementNames .html (marks text.toList) = ["ul", "li", "li", "br", "p", "p"] := by decide
  obtain ⟨hcount, hopen⟩ := read_conserves h tagged
  exact ⟨h, tagged, names, hcount.trans (by rw [names]; rfl), hopen _ _ (List.take_append_drop 5 _).symm⟩

end Reading

end Tabulate.Markup

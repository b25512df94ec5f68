import Tabulate.Proofs.Markup.Tags

/-! What is written for a tree of elements is taken in as the tree: each text and each child goes
to the element that it stands in. -/
namespace Tabulate.Markup

inductive Body
  | nil
  | text (chunk : String) (rest : Body)
  | child (tag : String) (attributes : List (String × String)) (inner rest : Body)

/-- An element around a text, with one tag alone if `short` allows it for an empty text. -/
def elementText (short : Bool) (tag : String) (attributes : List (String × String))
    (inner : List Char) : List Char :=
  if short && inner.isEmpty then '<' :: (tagText tag attributes ++ ['/', '>'])
  else '<' :: (tagText tag attributes ++ '>' :: (inner ++ '<' :: '/' :: (tag.toList ++ ['>'])))

namespace Body

def startsWithText : Body → Bool
  | text _ _ => true
  | nil | child .. => false

def IsProper : Body → Prop
  | nil => True
  | text _ rest => rest.startsWithText = false ∧ rest.IsProper
  | child tag attributes inner rest => IsTag tag attributes ∧ inner.IsProper ∧ rest.IsProper

def write (short : Bool) : Body → List Char
  | nil => []
  | text chunk rest => escaped chunk.toList ++ rest.write short
  | child tag attributes inner rest =>
    elementText short tag attributes (inner.write short) ++ rest.write short

def addTo : Body → Element → Element
  | nil, e => e
  | text chunk rest, e => rest.addTo (e.addText chunk.toList)
  | child tag attributes inner rest, e =>
    rest.addTo (e.addChild (inner.addTo (Element.ofTag tag attributes)))

end Body

section Events

def eventsFrom : Nat → List Char → List Event
  | 0, _ => []
  | fuel + 1, text =>
    match next? text with
    | none => []
    | some (event, rest) => event :: eventsFrom fuel rest

private theorem map_event_marksFrom (fuel position : Nat) (text : List Char) :
    (marksFrom fuel position text).map Mark.event = eventsFrom fuel text := by
  induction fuel generalizing position text with
  | zero => rfl
  | succ fuel ih =>
    rw [marksFrom, eventsFrom]
    cases next? text with
    | none => rfl
    | some found => rw [List.map_cons, ih]

/-- Places matter to faults alone. -/
theorem assemble_of_events {ms : List Mark} {s final : Opened}
    (h : (ms.map Mark.event).foldlM (takeEvent .xml) s = .ok final) :
    ms.foldlM (fun s m => (takeEvent .xml s m.event).mapError
      (fun fault => (⟨m.position, fault⟩ : SyntaxError))) s = .ok final := by
  induction ms generalizing s with
  | nil =>
    cases h
    rfl
  | cons m ms ih =>
    rw [List.map_cons, List.foldlM_cons] at h
    rw [List.foldlM_cons]
    cases hm : takeEvent .xml s m.event with
    | error fault =>
      rw [hm] at h
      contradiction
    | ok next =>
      rw [hm] at h
      exact ih h

/-- From the open elements `s`, the events of a text lead to `final`. -/
def Reaches (s : Opened) (text : List Char) (final : Opened) : Prop :=
  ∀ fuel, text.length ≤ fuel → (eventsFrom fuel text).foldlM (takeEvent .xml) s = .ok final

variable {s s' final : Opened} {text rest : List Char} {e : Event}

private theorem reaches_nil (s : Opened) : Reaches s [] s := by
  intro fuel _
  cases fuel <;> rfl

theorem Reaches.event (h : Reaches s' rest final) (hnext : next? text = some (e, rest))
    (shorter : rest.length < text.length) (htake : takeEvent .xml s e = .ok s') :
    Reaches s text final := by
  intro fuel enough
  obtain ⟨fuel, rfl⟩ : ∃ n, fuel = n + 1 := ⟨fuel - 1, by omega⟩
  rw [eventsFrom, hnext, List.foldlM_cons, htake]
  exact h fuel (by omega)

/-- A text that is passed over does not matter. -/
theorem Reaches.skip (h : Reaches s rest final) (hnext : next? text = next? rest)
    (shorter : rest.length ≤ text.length) : Reaches s text final := by
  intro fuel enough
  have hevents : eventsFrom fuel text = eventsFrom fuel rest := by
    cases fuel with
    | zero => rfl
    | succ fuel => rw [eventsFrom, hnext, eventsFrom]
  rw [hevents]
  exact h fuel (Nat.le_trans shorter enough)

end Events

section Runs
variable {short : Bool} {tag : String} {attributes : List (String × String)} {inner body : Body}
  {e : Element} {below : List Element} {rest : List Char} {final : Opened}

private theorem Element.addText_stripped (e : Element) (text : List Char) :
    e.addText (stripped text) = e.addText text := by
  rw [Element.addText, trim_stripped, Element.addText]

private theorem Element.addText_blank (e : Element) {text : List Char} (blank : text.dropWhile isSpace = []) :
    e.addText text = e := by
  rw [← Element.addText_stripped, stripped, blank]
  rfl

/-- A text before a tag is added to the innermost element. -/
theorem reaches_text (chunk : String)
    (h : Reaches ⟨e.addText chunk.toList, below⟩ ('<' :: rest) final) :
    Reaches ⟨e, below⟩ (escaped chunk.toList ++ '<' :: rest) final := by
  -- A blank text is no event, and any other is one without the white space around it.
  by_cases blank : chunk.toList.dropWhile isSpace = []
  · rw [e.addText_blank blank] at h
    exact h.skip (next?_blank blank) (by simp)
  · have hlength : 0 < (escaped chunk.toList).length := by
      refine List.length_pos_iff.mpr (escaped_ne_nil ?_)
      rintro hnil
      exact blank (by rw [hnil]; rfl)
    refine h.event (next?_text blank) (by rw [List.length_append]; omega) ?_
    simp only [takeEvent, textOf_escaped, Opened.addText, bind, Except.bind, e.addText_stripped]
    rfl

private theorem takeEvent_opening (h : IsTag tag attributes) :
    takeEvent .xml ⟨e, below⟩ (.opening (tagText tag attributes)) =
      .ok ⟨Element.ofTag tag attributes, e :: below⟩ := by
  rw [takeEvent, elementOf_tagText h]
  rfl

private theorem takeEvent_empty (h : IsTag tag attributes) :
    takeEvent .xml ⟨e, below⟩ (.empty (tagText tag attributes)) =
      .ok ⟨e.addChild (Element.ofTag tag attributes), below⟩ := by
  rw [takeEvent, elementOf_tagText h]
  rfl

private theorem closingName_name {name : String} (h : isName name = true) :
    closingName name.toList = name.toList := by
  have solid : ∀ c ∈ name.toList, isSpace c = false := fun c hc =>
    isSpace_of_isNameChar (isNameChar_of_mem h hc)
  obtain ⟨first, more, hname, -⟩ := isName_cases h
  obtain ⟨last, init, hlast⟩ : ∃ last init, name.toList.reverse = last :: init :=
    List.exists_cons_of_ne_nil (by simp [hname])
  have hmem : last ∈ name.toList := List.mem_reverse.mp (hlast ▸ List.mem_cons_self)
  have hall : name.toList.all isSpace ≠ true := by
    rw [hname, List.all_cons, solid first (hname ▸ List.mem_cons_self)]
    exact Bool.false_ne_true
  rw [closingName, if_neg hall]
  exact trimEnd_append_solid [] hlast (solid last hmem)

private theorem takeEvent_closing {child : Element} (hname : child.name = tag) (h : isName tag = true) :
    takeEvent .xml ⟨child, e :: below⟩ (.closing tag.toList) = .ok ⟨e.addChild child, below⟩ := by
  simp only [takeEvent, close, closingName_name h, nameOf, String.ofList_toList, hname, if_true]

/-- Nothing is added to an element but texts and fields. -/
theorem Body.name_addTo (body : Body) (e : Element) : (body.addTo e).name = e.name := by
  induction body generalizing e with
  | nil => rfl
  | text chunk rest ih =>
    rw [Body.addTo, ih, Element.addText]
    split <;> rfl
  | child tag attributes inner rest _ ih =>
    rw [Body.addTo, ih]
    rfl

/-- A content without text is one without effect. -/
theorem Body.addTo_of_write (h : body.write short = []) (e : Element) : body.addTo e = e := by
  induction body generalizing e with
  | nil => rfl
  | text chunk rest ih =>
    rw [Body.write, List.append_eq_nil_iff] at h
    have hchunk : chunk.toList = [] := by
      by_contra hne
      exact escaped_ne_nil hne h.1
    rw [Body.addTo, hchunk, ih h.2, e.addText_blank rfl]
  | child tag attributes inner rest _ _ =>
    rw [Body.write, List.append_eq_nil_iff, elementText] at h
    split at h <;> exact absurd h.1 (List.cons_ne_nil _ _)

/-- An element is added to the one around it, if its content is added to it. -/
theorem reaches_element (htag : IsTag tag attributes)
    (hinner : ∀ {e below rest final}, Reaches ⟨inner.addTo e, below⟩ ('<' :: rest) final →
      Reaches ⟨e, below⟩ (inner.write short ++ '<' :: rest) final)
    (h : Reaches ⟨e.addChild (inner.addTo (Element.ofTag tag attributes)), below⟩ rest final) :
    Reaches ⟨e, below⟩ (elementText short tag attributes (inner.write short) ++ rest) final := by
  unfold elementText
  split
  next alone =>
    have hnil : inner.write short = [] := by
      rw [Bool.and_eq_true, List.isEmpty_iff] at alone
      exact alone.2
    rw [inner.addTo_of_write hnil] at h
    have htext : '<' :: (tagText tag attributes ++ ['/', '>']) ++ rest =
        '<' :: (tagText tag attributes ++ '/' :: '>' :: rest) := by
      rw [List.cons_append, List.append_assoc]
      rfl
    rw [htext]
    exact h.event (next?_empty rest htag) (by simp; omega) (takeEvent_empty htag)
  next =>
    have hname : (inner.addTo (Element.ofTag tag attributes)).name = tag := inner.name_addTo _
    have hclosed : Reaches ⟨inner.addTo (Element.ofTag tag attributes), e :: below⟩
        ('<' :: '/' :: (tag.toList ++ '>' :: rest)) final := by
      refine h.event (next?_closing rest htag.name) ?_ (takeEvent_closing hname htag.name)
      simp only [List.length_cons, List.length_append]
      omega
    have htext : '<' :: (tagText tag attributes ++ '>' ::
          (inner.write short ++ '<' :: '/' :: (tag.toList ++ ['>']))) ++ rest =
        '<' :: (tagText tag attributes ++ '>' ::
          (inner.write short ++ '<' :: '/' :: (tag.toList ++ '>' :: rest))) := by
      simp
    rw [htext]
    refine (hinner hclosed).event (next?_opening _ htag) ?_ (takeEvent_opening htag)
    simp only [List.length_cons, List.length_append]
    omega

private theorem elementText_cons (short : Bool) (tag : String) (attributes : List (String × String))
    (inner : List Char) : ∃ more, elementText short tag attributes inner = '<' :: more := by
  unfold elementText
  split <;> exact ⟨_, rfl⟩

/-- What is written for a content is added to the element around it. -/
theorem reaches_body (proper : body.IsProper) (h : Reaches ⟨body.addTo e, below⟩ ('<' :: rest) final) :
    Reaches ⟨e, below⟩ (body.write short ++ '<' :: rest) final := by
  induction body generalizing e below rest final with
  | nil => exact h
  | text chunk more ih =>
    -- What follows a text is a tag, so the text ends where it is written to end.
    have hmore := ih proper.2 h
    rw [Body.write, List.append_assoc]
    cases more with
    | nil => exact reaches_text chunk hmore
    | text => exact absurd proper.1 (by simp [Body.startsWithText])
    | child tag attributes inner more =>
      obtain ⟨start, hstart⟩ := elementText_cons short tag attributes (inner.write short)
      rw [Body.write, hstart] at hmore ⊢
      exact reaches_text chunk hmore
  | child tag attributes inner more ihInner ihMore =>
    obtain ⟨htag, hinner, hmore⟩ := proper
    rw [Body.write, List.append_assoc]
    exact reaches_element htag (ihInner hinner) (ihMore hmore h)

end Runs

/-- The document of one element is taken in as the element, and nothing is left open. -/
theorem assemble_elementText {short : Bool} {tag : String} {attributes : List (String × String)}
    {body : Body} (htag : IsTag tag attributes) (proper : body.IsProper) :
    assemble .xml (marks (elementText short tag attributes (body.write short))) =
      .ok (Opened.document.attach (body.addTo (Element.ofTag tag attributes))) := by
  have hreaches : Reaches Opened.document (elementText short tag attributes (body.write short) ++ [])
      (Opened.document.attach (body.addTo (Element.ofTag tag attributes))) :=
    reaches_element htag (reaches_body proper) (reaches_nil _)
  rw [List.append_nil] at hreaches
  obtain ⟨more, hstart⟩ := elementText_cons short tag attributes (body.write short)
  have hmark : withoutMark (elementText short tag attributes (body.write short)) =
      elementText short tag attributes (body.write short) := by
    rw [hstart]
    rfl
  rw [assemble, marks, hmark]
  refine assemble_of_events ?_
  rw [map_event_marksFrom]
  exact hreaches _ (Nat.le_refl _)

end Tabulate.Markup

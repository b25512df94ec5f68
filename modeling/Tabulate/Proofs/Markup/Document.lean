import Mathlib.Data.List.Induction
import Tabulate.Proofs.Grouping
import Tabulate.Proofs.Markup.Assembly

/-! The value of a document follows its structure: attributes first, then children by their tags,
then the text. -/
namespace Tabulate.Markup

/-- A text without the white space around it, unless it is blank. -/
def chunkOf (text : String) : List String :=
  match Unicode.trim text.toList with
  | [] => []
  | c :: more => [String.ofList (c :: more)]

def Body.chunks : Body → List String
  | nil => []
  | text chunk rest => chunkOf chunk ++ rest.chunks
  | child _ _ _ rest => rest.chunks

/-- One value stands for itself, and more of them are an array. -/
def together : List Value → Value
  | [v] => v
  | values => .array values

def tagged (children : List (String × Value)) (tag : String) : List Value :=
  (children.filter (·.1 = tag)).map Prod.snd

/-- The values of children by their tags, in order of the first child of each. -/
def byTag (children : List (String × Value)) : Fields :=
  (children.map Prod.fst).eraseDups.map fun tag => (tag, together (tagged children tag))

def valueOf (attributes : List (String × String)) (children : List (String × Value))
    (chunks : List String) : Value :=
  let text := " ".intercalate chunks
  if attributes = [] ∧ children = [] then .string text
  else .object (attributes.map attributeField ++ byTag children ++
    if text = "" then [] else [("#text", .string text)])

def Body.children : Body → List (String × Value)
  | nil => []
  | text _ rest => rest.children
  | child tag attributes inner rest =>
    (tag, valueOf attributes inner.children inner.chunks) :: rest.children

section Children

/-- A value of an element is not an array, which would be taken for the values of several. -/
def IsSingle : Value → Prop
  | .array _ => False
  | _ => True

private theorem isSingle_valueOf (attributes : List (String × String)) (children : List (String × Value))
    (chunks : List String) : IsSingle (valueOf attributes children chunks) := by
  unfold valueOf
  split <;> trivial

private theorem beside_together {values : List Value} (some' : values ≠ []) (single : ∀ v ∈ values, IsSingle v)
    (v : Value) : Element.beside (some (together values)) v = together (values ++ [v]) := by
  match values with
  | [] => contradiction
  | [first] =>
    have hfirst := single first List.mem_cons_self
    cases first with
    | array => exact hfirst.elim
    | _ => rfl
  | _ :: _ :: _ => rfl

variable {children : List (String × Value)} {tag : String}

private theorem tagged_concat (v : Value) (key : String) :
    tagged (children ++ [(tag, v)]) key =
      if key = tag then tagged children key ++ [v] else tagged children key := by
  rw [tagged, List.filter_append, List.map_append, List.filter_singleton]
  by_cases h : key = tag
  · simp [h, tagged]
  · simp [h, Ne.symm h, tagged]

private theorem tagged_eq_nil (h : tag ∉ children.map Prod.fst) : tagged children tag = [] := by
  rw [tagged, List.map_eq_nil_iff, List.filter_eq_nil_iff]
  intro child hchild heq
  exact h (of_decide_eq_true heq ▸ List.mem_map_of_mem hchild)

private theorem tagged_ne_nil (h : tag ∈ children.map Prod.fst) : tagged children tag ≠ [] := by
  obtain ⟨child, hchild, rfl⟩ := List.mem_map.mp h
  refine List.ne_nil_of_mem (List.mem_map_of_mem (List.mem_filter.mpr ⟨hchild, ?_⟩))
  exact decide_eq_true rfl

private theorem mem_of_mem_tagged {v : Value} (h : v ∈ tagged children tag) : ∃ child ∈ children, child.2 = v := by
  obtain ⟨child, hchild, rfl⟩ := List.mem_map.mp h
  exact ⟨child, (List.mem_filter.mp hchild).1, rfl⟩

private theorem keys_byTag : (byTag children).map Prod.fst = (children.map Prod.fst).eraseDups := by
  rw [byTag, List.map_map]
  exact List.map_id _

/-- The value of one more child stands beside those with its tag. -/
theorem byTag_concat (single : ∀ child ∈ children, IsSingle child.2) (v : Value) :
    byTag (children ++ [(tag, v)]) =
      Fields.insert (byTag children) tag (Element.beside (Fields.get? (byTag children) tag) v) := by
  rw [byTag, List.map_append, List.map_singleton, Groups.eraseDups_append_singleton]
  split
  next h =>
    have hmem : tag ∈ (children.map Prod.fst).eraseDups := List.mem_eraseDups.mpr h
    have hsingle : ∀ w ∈ tagged children tag, IsSingle w := fun w hw => by
      obtain ⟨child, hchild, rfl⟩ := mem_of_mem_tagged hw
      exact single child hchild
    have hvalue : Element.beside (Fields.get? (byTag children) tag) v =
        together (tagged children tag ++ [v]) := by
      rw [byTag, Fields.get?_map_of_mem hmem, beside_together (tagged_ne_nil h) hsingle]
    rw [hvalue, byTag, Fields.insert_map_of_mem (Groups.nodup_eraseDups _) hmem]
    refine List.map_congr_left fun key _ => ?_
    rw [tagged_concat]
    split
    next heq => rw [heq]
    next => rfl
  next h =>
    have hkeys : tag ∉ (byTag children).map Prod.fst := by
      rwa [keys_byTag, List.mem_eraseDups]
    have hget : Fields.get? (byTag children) tag = none := by
      rw [← List.append_nil (byTag children), Fields.get?_append_of_notMem hkeys]
      rfl
    rw [hget, Fields.insert_of_notMem _ hkeys, List.map_append, List.map_singleton, tagged_concat,
      if_pos rfl, tagged_eq_nil h]
    refine congrArg (· ++ _) (List.map_congr_left fun key hkey => ?_)
    have hne : key ≠ tag := ne_of_mem_of_not_mem (List.mem_eraseDups.mp hkey) h
    rw [tagged_concat, if_neg hne]

end Children

section Texts
variable {chunks : List String}

private theorem ne_empty_of_mem_chunkOf {text chunk : String} (h : chunk ∈ chunkOf text) : chunk ≠ "" := by
  unfold chunkOf at h
  split at h
  · contradiction
  · rw [List.mem_singleton] at h
    subst h
    simp

private theorem intercalate_eq_empty (solid : ∀ c ∈ chunks, c ≠ "") :
    " ".intercalate chunks = "" ↔ chunks = [] := by
  constructor
  · intro h
    cases chunks with
    | nil => rfl
    | cons c rest =>
      have hc : c.toList ≠ [] := by simpa using solid c List.mem_cons_self
      have hlist := congrArg String.toList h
      cases rest <;> simp_all
  · rintro rfl
    rfl

end Texts

def Element.ofParts (name : String) (attributes : List (String × String))
    (children : List (String × Value)) (chunks : List String) : Element :=
  ⟨name, attributes.map attributeField ++ byTag children, " ".intercalate chunks⟩

section Parts
variable {name : String} {attributes : List (String × String)} {children : List (String × Value)}
  {chunks : List String}

private theorem ofParts_nil : Element.ofParts name attributes [] [] = Element.ofTag name attributes := by
  simp [Element.ofParts, Element.ofTag, byTag]

private theorem addText_ofParts (solid : ∀ c ∈ chunks, c ≠ "") (text : String) :
    (Element.ofParts name attributes children chunks).addText text.toList =
      Element.ofParts name attributes children (chunks ++ chunkOf text) := by
  cases htrim : Unicode.trim text.toList with
  | nil => simp only [Element.addText, chunkOf, htrim, List.append_nil]
  | cons c more =>
    let e := Element.ofParts name attributes children chunks
    have htext : (if e.text.isEmpty then String.ofList (c :: more)
        else e.text ++ " " ++ String.ofList (c :: more)) =
          " ".intercalate (chunks ++ [String.ofList (c :: more)]) := by
      by_cases h : chunks = []
      · subst h
        simp [e, Element.ofParts]
      · have hsome : ¬ e.text.isEmpty = true := by
          rw [String.isEmpty_iff]
          exact fun hempty => h ((intercalate_eq_empty solid).mp hempty)
        rw [if_neg hsome, String.intercalate_append_of_ne_nil h (List.cons_ne_nil _ _),
          String.intercalate_singleton]
        rfl
    simp only [Element.addText, chunkOf, htrim]
    exact congrArg (Element.mk name _) htext

/-- No element has the name of a field of an attribute or of the text. -/
theorem notMem_attributes {key : String} (h : key.toList.head? ≠ some '@') :
    key ∉ (attributes.map attributeField).map Prod.fst := by
  rw [List.map_map]
  intro hmem
  obtain ⟨a, -, rfl⟩ := List.mem_map.mp hmem
  exact h (by simp [attributeField])

private theorem head?_name (h : isName name = true) {c : Char} (hc : isNameChar c = false) :
    name.toList.head? ≠ some c := fun hhead =>
  ne_of_isNameChar (isNameChar_of_mem h (List.mem_of_head? hhead)) hc rfl

private theorem addChild_ofParts (single : ∀ child ∈ children, IsSingle child.2) {child : Element}
    (h : isName child.name = true) :
    (Element.ofParts name attributes children chunks).addChild child =
      Element.ofParts name attributes (children ++ [(child.name, child.value)]) chunks := by
  have hnew : child.name ∉ (attributes.map attributeField).map Prod.fst :=
    notMem_attributes (head?_name h rfl)
  rw [Element.addChild, Element.ofParts, Element.ofParts]
  simp only
  rw [Fields.get?_append_of_notMem hnew, Fields.insert_append_of_notMem hnew, byTag_concat single]

private theorem byTag_eq_nil : byTag children = [] ↔ children = [] := by
  constructor
  · intro h
    have hkeys := congrArg (List.map Prod.fst) h
    rw [keys_byTag, List.map_nil] at hkeys
    cases children with
    | nil => rfl
    | cons child rest => simp [List.eraseDups_cons] at hkeys
  · rintro rfl
    rfl

private theorem value_ofParts (names : ∀ child ∈ children, isName child.1 = true) :
    (Element.ofParts name attributes children chunks).value = valueOf attributes children chunks := by
  have hempty : (attributes.map attributeField ++ byTag children).isEmpty = true ↔
      attributes = [] ∧ children = [] := by
    rw [List.isEmpty_iff, List.append_eq_nil_iff, List.map_eq_nil_iff, byTag_eq_nil]
  have htext : "#text" ∉ (attributes.map attributeField ++ byTag children).map Prod.fst := by
    rw [List.map_append, List.mem_append, not_or, keys_byTag, List.mem_eraseDups]
    refine ⟨notMem_attributes (by decide), fun hmem => ?_⟩
    obtain ⟨child, hchild, hname⟩ := List.mem_map.mp hmem
    have := names child hchild
    rw [hname] at this
    contradiction
  rw [Element.value, Element.ofParts, valueOf]
  simp only [hempty, String.isEmpty_iff]
  split
  · rfl
  · split
    · rw [List.append_nil]
    · rw [Fields.insert_of_notMem _ htext]

end Parts

/-- Children that are named as elements are, with values that stand for themselves. -/
theorem Body.mem_children {body : Body} (proper : body.IsProper) {child : String × Value}
    (h : child ∈ body.children) : isName child.1 = true ∧ IsSingle child.2 := by
  induction body with
  | nil => contradiction
  | text chunk rest ih => exact ih proper.2 h
  | child tag attributes inner rest _ ih =>
    rcases List.mem_cons.mp h with rfl | h
    · exact ⟨proper.1.name, isSingle_valueOf _ _ _⟩
    · exact ih proper.2.2 h

/-- A content adds its children and its texts to the parts of an element. -/
theorem Body.addTo_ofParts {body : Body} (proper : body.IsProper) {name : String}
    {attributes : List (String × String)} {children : List (String × Value)} {chunks : List String}
    (single : ∀ child ∈ children, IsSingle child.2) (solid : ∀ c ∈ chunks, c ≠ "") :
    body.addTo (Element.ofParts name attributes children chunks) =
      Element.ofParts name attributes (children ++ body.children) (chunks ++ body.chunks) := by
  induction body generalizing name attributes children chunks with
  | nil => rw [Body.addTo, Body.children, Body.chunks, List.append_nil, List.append_nil]
  | text chunk rest ih =>
    have hsolid : ∀ c ∈ chunks ++ chunkOf chunk, c ≠ "" := fun c hc =>
      (List.mem_append.mp hc).elim (solid c) ne_empty_of_mem_chunkOf
    rw [Body.addTo, addText_ofParts solid, ih proper.2 single hsolid, List.append_assoc]
    rfl
  | child tag attributes' inner rest ihInner ihRest =>
    -- The child is complete, with a value of its own, before it is added.
    obtain ⟨htag, hinner, hrest⟩ := proper
    have hchild : inner.addTo (Element.ofTag tag attributes') =
        Element.ofParts tag attributes' inner.children inner.chunks := by
      rw [← ofParts_nil]
      exact ihInner hinner (List.forall_mem_nil _) (List.forall_mem_nil _)
    have hvalue : (Element.ofParts tag attributes' inner.children inner.chunks).value =
        valueOf attributes' inner.children inner.chunks :=
      value_ofParts fun c hc => (Body.mem_children hinner hc).1
    have hsingle : ∀ c ∈ children ++ [(tag, valueOf attributes' inner.children inner.chunks)],
        IsSingle c.2 := by
      intro c hc
      rcases List.mem_append.mp hc with hc | hc
      · exact single c hc
      · rw [List.mem_singleton.mp hc]
        exact isSingle_valueOf _ _ _
    have hadd : (Element.ofParts name attributes children chunks).addChild
        (Element.ofParts tag attributes' inner.children inner.chunks) =
          Element.ofParts name attributes
            (children ++ [(tag, valueOf attributes' inner.children inner.chunks)]) chunks := by
      rw [addChild_ofParts single htag.name, hvalue]
      rfl
    rw [Body.addTo, hchild, hadd, ihRest hrest hsingle solid, List.append_assoc]
    rfl

/-- The element of a tag with its content is the one of its parts. -/
theorem Body.addTo_ofTag {body : Body} (proper : body.IsProper) (tag : String)
    (attributes : List (String × String)) : body.addTo (Element.ofTag tag attributes) =
      Element.ofParts tag attributes body.children body.chunks := by
  rw [← ofParts_nil]
  exact body.addTo_ofParts proper (List.forall_mem_nil _) (List.forall_mem_nil _)

/-- A document that is one element is read as the value of the element under its tag. -/
theorem read_elementText (short : Bool) {tag : String} {attributes : List (String × String)}
    {body : Body} (h : IsTag tag attributes) (proper : body.IsProper) :
    Markup.read .xml (String.ofList (elementText short tag attributes (body.write short))) =
      .ok (.object [(tag, valueOf attributes body.children body.chunks)]) := by
  have hvalue : (Element.ofParts tag attributes body.children body.chunks).value =
      valueOf attributes body.children body.chunks :=
    value_ofParts fun c hc => (Body.mem_children proper hc).1
  have hassemble : assemble .xml (marks (elementText short tag attributes (body.write short))) = _ :=
    assemble_elementText h proper
  rw [Body.addTo_ofTag proper] at hassemble
  rw [Markup.read, String.toList_ofList, hassemble, ← hvalue]
  rfl

/-- Two children of one tag with another between them, around and beside texts. -/
theorem read_elementText_catalog :
    let attributes := [("id", "a<\"b\"")]
    let body : Body := .text " x &" (.child "item" [] (.text " 1 " .nil) (.child "note" [] .nil
      (.child "item" [("n", "2")] (.text "'" .nil) (.text "\ny" .nil))))
    IsTag "catalog" attributes ∧ body.IsProper ∧
      elementText true "catalog" attributes (body.write true) =
        ("<catalog id=\"a&lt;&quot;b&quot;\"> x &amp;<item> 1 </item><note/>" ++
          "<item n=\"2\">&apos;</item>\ny</catalog>").toList ∧
      Markup.read .xml (String.ofList (elementText true "catalog" attributes (body.write true))) =
        .ok (.object [("catalog", .object [("@id", .string "a<\"b\""),
          ("item", .array [.string "1", .object [("@n", .string "2"), ("#text", .string "'")]]),
          ("note", .string ""), ("#text", .string "x & y")])]) := by
  intro attributes body
  have tag : IsTag "catalog" attributes := by constructor <;> decide
  have item : IsTag "item" [] := by constructor <;> decide
  have note : IsTag "note" [] := by constructor <;> decide
  have numbered : IsTag "item" [("n", "2")] := by constructor <;> decide
  have proper : body.IsProper :=
    ⟨rfl, item, ⟨rfl, trivial⟩, note, trivial, numbered, ⟨rfl, trivial⟩, rfl, trivial⟩
  refine ⟨tag, proper, by decide +kernel, ?_⟩
  rw [read_elementText true tag proper]
  rfl

end Tabulate.Markup

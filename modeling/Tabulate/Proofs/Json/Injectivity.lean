import Tabulate.Proofs.Json.RoundTrip
import Tabulate.Proofs.Number.FloatText

/-! Different documents have different texts on one line, and no text of a document is the start
of another one unless a number goes on. -/
namespace Tabulate.Json

/-- All numbers of a document are finite, so each of them has a text of its own. -/
inductive Tree.IsFinite : Tree → Prop
  | null : IsFinite .null
  | bool (b : Bool) : IsFinite (.bool b)
  | integer (n : Int) : IsFinite (.integer n)
  | float {n : Number} (h : n.isFinite = true) : IsFinite (.float n)
  | string (s : String) : IsFinite (.string s)
  | array {items : List Tree} (h : ∀ t ∈ items, t.IsFinite) : IsFinite (.array items)
  | object {fields : List (String × Tree)} (h : ∀ f ∈ fields, f.2.IsFinite) : IsFinite (.object fields)

def Ends (text : List Char) : Prop := ∀ c ∈ text.head?, c ∈ [',', ']', '\x7d']

/-- Two texts tell where they end: they are the same if one longer text starts with both. -/
def Splits {α : Type} (print : α → List Char) (a b : α) : Prop :=
  ∀ {u v : List Char}, Ends u → Ends v → print a ++ u = print b ++ v → a = b ∧ u = v

section Numbers

private theorem not_ends_cons {c : Char} (hc : IsNumeric c) (rest : List Char) : ¬ Ends (c :: rest) := by
  have hmark : ∀ c ∈ [',', ']', '\x7d'], ¬ IsNumeric c := by
    simp only [List.forall_mem_cons]
    exact ⟨by decide, by decide, by decide, nofun⟩
  exact fun h => hmark c (h c rfl) hc

/-- Numbers tell where they end: at the first character that is none of theirs. -/
theorem numeric_append_inj {s t u v : List Char} (hs : ∀ c ∈ s, IsNumeric c)
    (ht : ∀ c ∈ t, IsNumeric c) (hu : Ends u) (hv : Ends v) (h : s ++ u = t ++ v) : s = t ∧ u = v := by
  induction s generalizing t with
  | nil =>
    cases t with
    | nil => exact ⟨rfl, h⟩
    | cons c t =>
      rw [List.nil_append] at h
      exact absurd (h ▸ hu) (not_ends_cons (ht c List.mem_cons_self) _)
  | cons c s ih =>
    cases t with
    | nil =>
      rw [List.nil_append] at h
      exact absurd (h ▸ hv) (not_ends_cons (hs c List.mem_cons_self) _)
    | cons d t =>
      obtain ⟨rfl, hrest⟩ := List.cons.inj h
      obtain ⟨rfl, huv⟩ := ih (fun c hc => hs c (List.mem_cons_of_mem _ hc))
        (fun c hc => ht c (List.mem_cons_of_mem _ hc)) hrest
      exact ⟨rfl, huv⟩

private theorem mem_digits {n : Int} : ∀ c ∈ digits n, c.isDigit = true ∨ c = '-' := by
  obtain ⟨k, -, hk⟩ | ⟨k, -, hk⟩ := digits_cases n <;> rw [hk]
  · exact fun c hc => .inl (isDigit_toDigits c hc)
  · exact List.forall_mem_cons.mpr ⟨.inr rfl, fun c hc => .inl (isDigit_toDigits c hc)⟩

private theorem isNumeric_digits {n : Int} : ∀ c ∈ digits n, IsNumeric c :=
  fun c hc => (mem_digits c hc).imp_right fun h => by simp [h]

private theorem digits_ne_floatText {n : Int} {m : Number} (h : m.isFinite = true) :
    digits n ≠ m.floatText.toList := by
  intro heq
  have hmark := Number.marked_floatText h
  rw [← heq] at hmark
  obtain hpoint | hpower := hmark
  · exact absurd (mem_digits _ hpoint) (by decide)
  · exact absurd (mem_digits _ hpower) (by decide)

private theorem digits_inj {m n : Int} (h : digits m = digits n) : m = n := by
  have hsign : ∀ k l : Nat, '-' :: Nat.toDigits 10 k ≠ Nat.toDigits 10 l := fun k l h =>
    absurd (isDigit_toDigits '-' (h ▸ List.mem_cons_self)) (by decide)
  obtain ⟨k, rfl, hk⟩ | ⟨k, rfl, hk⟩ := digits_cases m <;>
    obtain ⟨l, rfl, hl⟩ | ⟨l, rfl, hl⟩ := digits_cases n <;> rw [hk, hl] at h
  · rw [toDigits_injective h]
  · exact absurd h.symm (hsign _ _)
  · exact absurd h (hsign _ _)
  · rw [toDigits_injective (List.cons.inj h).2]

end Numbers

section Kinds

inductive Kind
  | null | bool | number | string | array | object
deriving DecidableEq

def Tree.kind : Tree → Kind
  | null => .null
  | bool _ => .bool
  | integer _ | float _ => .number
  | string _ => .string
  | array _ => .array
  | object _ => .object

def Kind.ofChar? (c : Char) : Option Kind :=
  if IsNumeric c then some number
  else if c = 'n' then some null
  else if c = 't' ∨ c = 'f' then some bool
  else if c = '"' then some string
  else if c = '[' then some array
  else if c = '\x7b' then some object
  else none

private theorem starts_of_isNumeric {text : List Char} (some : text ≠ []) (h : ∀ c ∈ text, IsNumeric c) :
    ∃ c rest, text = c :: rest ∧ Kind.ofChar? c = .some .number := by
  obtain ⟨c, rest, rfl⟩ := List.exists_cons_of_ne_nil some
  exact ⟨c, rest, rfl, if_pos (h c List.mem_cons_self)⟩

theorem Tree.IsFinite.starts {t : Tree} (h : t.IsFinite) :
    ∃ c rest, compact t = c :: rest ∧ Kind.ofChar? c = some t.kind := by
  cases h with
  | bool b => cases b <;> exact ⟨_, _, rfl, rfl⟩
  | integer n => exact starts_of_isNumeric (digits_ne_nil n) isNumeric_digits
  | float h =>
    refine starts_of_isNumeric ?_ (Number.isNumeric_floatText h)
    exact (Number.marked_floatText h).elim List.ne_nil_of_mem List.ne_nil_of_mem
  | null | string | array | object => exact ⟨_, _, rfl, rfl⟩

/-- Documents with texts that start alike are of one kind. -/
theorem kind_eq {t t' : Tree} (h : t.IsFinite) (h' : t'.IsFinite) {u v : List Char}
    (heq : compact t ++ u = compact t' ++ v) : t.kind = t'.kind := by
  obtain ⟨c, rest, hc, hkind⟩ := h.starts
  obtain ⟨c', rest', hc', hkind'⟩ := h'.starts
  rw [hc, hc'] at heq
  rw [(List.cons.inj heq).1, hkind'] at hkind
  exact (Option.some.inj hkind).symm

end Kinds

section Lists
variable {α : Type} {print : α → List Char} {close : Char}

/-- Each item but the first comes after a comma. -/
theorem separated_cons (a : α) (more : List α) :
    separated [] print (a :: more) = print a ++ more.flatMap fun b => ',' :: print b := by
  induction more generalizing a with
  | nil => simp [separated]
  | cons b more ih =>
    rw [separated, ih, List.flatMap_cons, List.cons_append]
    rfl

variable (hclose : close = ']' ∨ close = '\x7d')
include hclose

private theorem ends_following (more : List α) (rest : List Char) :
    Ends ((more.flatMap fun b => ',' :: print b) ++ close :: rest) := by
  intro c hc
  cases more with
  | nil =>
    cases hc
    rcases hclose with rfl | rfl <;> decide
  | cons b more =>
    cases hc
    exact List.mem_cons_self

private theorem following_append_inj {as bs : List α} (hsplit : ∀ a ∈ as, ∀ b ∈ bs, Splits print a b)
    {u v : List Char} (h : (as.flatMap fun a => ',' :: print a) ++ close :: u =
      (bs.flatMap fun b => ',' :: print b) ++ close :: v) : as = bs ∧ u = v := by
  have hcomma : close ≠ ',' := by rcases hclose with rfl | rfl <;> decide
  induction as generalizing bs with
  | nil =>
    cases bs with
    | nil => exact ⟨rfl, (List.cons.inj h).2⟩
    | cons b bs => exact absurd (List.cons.inj h).1 hcomma
  | cons a as ih =>
    cases bs with
    | nil => exact absurd (List.cons.inj h).1.symm hcomma
    | cons b bs =>
      simp only [List.flatMap_cons, List.cons_append, List.append_assoc] at h
      obtain ⟨rfl, hrest⟩ := hsplit a List.mem_cons_self b List.mem_cons_self
        (ends_following hclose as u) (ends_following hclose bs v) (List.cons.inj h).2
      obtain ⟨rfl, huv⟩ := ih (fun a ha b hb => hsplit a (List.mem_cons_of_mem _ ha) b
        (List.mem_cons_of_mem _ hb)) hrest
      exact ⟨rfl, huv⟩

private theorem separated_append_inj {as bs : List α} (hsplit : ∀ a ∈ as, ∀ b ∈ bs, Splits print a b)
    (ha : ∀ a ∈ as, ∀ rest more, print a ++ rest ≠ close :: more)
    (hb : ∀ b ∈ bs, ∀ rest more, print b ++ rest ≠ close :: more) {u v : List Char}
    (h : separated [] print as ++ close :: u = separated [] print bs ++ close :: v) :
    as = bs ∧ u = v := by
  -- the items tell where they end, and none of them starts like the end of the list
  cases as with
  | nil =>
    cases bs with
    | nil => exact ⟨rfl, (List.cons.inj h).2⟩
    | cons b bs =>
      rw [separated_cons, List.append_assoc] at h
      exact absurd h.symm (hb b List.mem_cons_self _ _)
  | cons a as =>
    cases bs with
    | nil =>
      rw [separated_cons, List.append_assoc] at h
      exact absurd h (ha a List.mem_cons_self _ _)
    | cons b bs =>
      rw [separated_cons, separated_cons] at h
      exact following_append_inj hclose hsplit (congrArg (',' :: ·) h)

end Lists

section Documents
variable {t t' : Tree}

private theorem Tree.IsFinite.ne_close {close : Char} (hclose : close = ']' ∨ close = '\x7d')
    (h : t.IsFinite) (rest more : List Char) : compact t ++ rest ≠ close :: more := by
  have hnone : Kind.ofChar? close = none := by rcases hclose with rfl | rfl <;> rfl
  obtain ⟨c, tail, hc, hkind⟩ := h.starts
  intro heq
  rw [hc, List.cons_append] at heq
  rw [(List.cons.inj heq).1, hnone] at hkind
  contradiction

private theorem splits_of_number (h : t.IsFinite) (h' : t'.IsFinite) (number : t.kind = .number)
    (number' : t'.kind = .number) : Splits compact t t' := by
  have hnumeric : ∀ {t : Tree}, t.IsFinite → t.kind = .number → ∀ c ∈ compact t, IsNumeric c := by
    intro t h number
    cases h with
    | integer => exact isNumeric_digits
    | float h => exact Number.isNumeric_floatText h
    | _ => cases number
  intro u v hu hv heq
  obtain ⟨htext, huv⟩ := numeric_append_inj (hnumeric h number) (hnumeric h' number') hu hv heq
  refine ⟨?_, huv⟩
  cases h with
  | integer n =>
    cases h' with
    | integer n' => rw [digits_inj htext]
    | float h' => exact absurd htext (digits_ne_floatText h')
    | _ => cases number'
  | float h =>
    cases h' with
    | integer n' => exact absurd htext.symm (digits_ne_floatText h)
    | float h' => rw [Number.floatText_inj h h' htext]
    | _ => cases number'
  | _ => cases number

private theorem splits_member {key key' : String} (h : Splits compact t t') :
    Splits (member [] compact) (key, t) (key', t') := by
  intro u v hu hv heq
  simp only [member, List.append_assoc, List.nil_append, List.cons_append] at heq
  obtain ⟨rfl, hrest⟩ := quoted_append_inj heq
  obtain ⟨rfl, huv⟩ := h hu hv (List.cons.inj hrest).2
  exact ⟨rfl, huv⟩

private theorem member_ne_close {field : String × Tree} (rest more : List Char) :
    member [] compact field ++ rest ≠ '\x7d' :: more :=
  fun heq => absurd (List.cons.inj heq).1 (by decide)

/-- The text of a document tells where it ends. -/
theorem compact_append_inj (h : t.IsFinite) (h' : t'.IsFinite) : Splits compact t t' := by
  induction h generalizing t' with
  | null =>
    intro u v hu hv heq
    have hkind := kind_eq .null h' heq
    cases h' with
    | null => exact ⟨rfl, List.append_cancel_left heq⟩
    | _ => cases hkind
  | bool b =>
    intro u v hu hv heq
    have hkind := kind_eq (.bool b) h' heq
    cases h' with
    | bool b' =>
      cases b <;> cases b' <;> first | exact ⟨rfl, List.append_cancel_left heq⟩ | cases heq
    | _ => cases hkind
  | integer n =>
    intro u v hu hv heq
    have hkind := kind_eq (.integer n) h' heq
    exact splits_of_number (.integer n) h' rfl hkind.symm hu hv heq
  | float h =>
    intro u v hu hv heq
    have hkind := kind_eq (.float h) h' heq
    exact splits_of_number (.float h) h' rfl hkind.symm hu hv heq
  | string s =>
    intro u v hu hv heq
    have hkind := kind_eq (.string s) h' heq
    cases h' with
    | string s' =>
      obtain ⟨rfl, huv⟩ := quoted_append_inj heq
      exact ⟨rfl, huv⟩
    | _ => cases hkind
  | @array items h ih =>
    intro u v hu hv heq
    have hkind := kind_eq (.array h) h' heq
    cases h' with
    | @array items' h' =>
      simp only [compact, compactItems_eq, List.append_assoc, List.cons_append] at heq
      obtain ⟨rfl, huv⟩ := separated_append_inj (.inl rfl) (fun a ha b hb => ih a ha (h' b hb))
        (fun a ha => (h a ha).ne_close (.inl rfl)) (fun b hb => (h' b hb).ne_close (.inl rfl))
        (List.cons.inj heq).2
      exact ⟨rfl, huv⟩
    | _ => cases hkind
  | @object fields h ih =>
    intro u v hu hv heq
    have hkind := kind_eq (.object h) h' heq
    cases h' with
    | @object fields' h' =>
      simp only [compact, compactFields_eq, List.append_assoc, List.cons_append] at heq
      obtain ⟨rfl, huv⟩ := separated_append_inj (.inr rfl)
        (fun a ha b hb => splits_member (ih a ha (h' b hb)))
        (fun _ _ => member_ne_close) (fun _ _ => member_ne_close)
        (List.cons.inj heq).2
      exact ⟨rfl, huv⟩
    | _ => cases hkind

/-- Different documents have different texts. -/
theorem Tree.text_inj (h : t.IsFinite) (h' : t'.IsFinite) (heq : t.text = t'.text) : t = t' := by
  have hends : Ends [] := nofun
  have htext : compact t ++ [] = compact t' ++ [] := by rw [String.ofList_injective heq]
  exact (compact_append_inj h h' hends hends htext).1

end Documents

end Tabulate.Json

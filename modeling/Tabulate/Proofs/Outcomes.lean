import Mathlib.Data.List.Forall2

/-! Computations that may fail: what a success says of their parts, and computations that succeed
wherever others do. -/
namespace Tabulate

section Success
variable {ε δ α β : Type}

theorem exists_of_bind_eq_ok {x : Except ε α} {f : α → Except ε β} {b : β} (h : x >>= f = .ok b) :
    ∃ a, x = .ok a ∧ f a = .ok b := by
  cases x with
  | error e => contradiction
  | ok a => exact ⟨a, rfl, h⟩

theorem eq_ok_of_mapError {x : Except ε α} {f : ε → δ} {a : α} (h : x.mapError f = .ok a) :
    x = .ok a := by
  cases x with
  | error e => contradiction
  | ok b =>
    cases h
    rfl

theorem exists_of_map_eq_ok {f : α → β} {x : Except ε α} {b : β} (h : x.map f = .ok b) :
    ∃ a, x = .ok a ∧ f a = b := by
  cases x with
  | error e => contradiction
  | ok a => exact ⟨a, rfl, Except.ok.inj h⟩

def errorOf? : Except ε α → Option ε
  | .ok _ => none
  | .error e => some e

theorem eq_error_of_errorOf? {x : Except ε α} {e : ε} (h : errorOf? x = some e) : x = .error e := by
  cases x with
  | ok a => contradiction
  | error fault =>
    cases h
    rfl

/-- What each step over some items keeps is kept by all of them. -/
theorem foldlM_keeps {f : β → α → Except ε β} {P : β → Prop} {items : List α}
    (step : ∀ a ∈ items, ∀ b next, P b → f b a = .ok next → P next) {b final : β} (hb : P b)
    (h : items.foldlM f b = .ok final) : P final := by
  induction items generalizing b with
  | nil =>
    cases h
    exact hb
  | cons a items ih =>
    obtain ⟨hstep, hmore⟩ := List.forall_mem_cons.mp step
    obtain ⟨next, hnext, h⟩ := exists_of_bind_eq_ok h
    exact ih hmore (hstep b next hb hnext) h

/-- Where every item has a result, the results of all items are found. -/
theorem exists_mapM_eq_ok {f : α → Except ε β} {P : α → β → Prop} {items : List α}
    (h : ∀ a ∈ items, ∃ b, f a = .ok b ∧ P a b) :
    ∃ results, items.mapM f = .ok results ∧ List.Forall₂ P items results := by
  induction items with
  | nil => exact ⟨[], rfl, .nil⟩
  | cons a items ih =>
    obtain ⟨⟨b, hb, hab⟩, hmore⟩ := List.forall_mem_cons.mp h
    obtain ⟨results, hresults, hall⟩ := ih hmore
    refine ⟨b :: results, ?_, .cons hab hall⟩
    rw [List.mapM_cons, hb, hresults]
    rfl

/-- Where a test has a result for every item, the items that pass it are found. -/
theorem filterM_eq_ok {f : α → Except ε Bool} {p : α → Bool} {items : List α}
    (h : ∀ a ∈ items, f a = .ok (p a)) : items.filterM f = .ok (items.filter p) := by
  have hfound (found : List α) : items.filterAuxM f found = .ok ((items.filter p).reverse ++ found) := by
    induction items generalizing found with
    | nil => rfl
    | cons a items ih =>
      obtain ⟨ha, hmore⟩ := List.forall_mem_cons.mp h
      rw [List.filterAuxM, ha, List.filter_cons]
      cases hp : p a with
      | true =>
        rw [if_pos rfl, List.reverse_cons, List.append_assoc]
        exact ih hmore (a :: found)
      | false =>
        rw [if_neg Bool.false_ne_true]
        exact ih hmore found
  rw [List.filterM, hfound, List.append_nil]
  exact congrArg Except.ok (List.reverse_reverse _)

/-- The first item that fails is the failure of all. -/
theorem mapM_append_error {f : α → Except ε β} {before after : List α} {a : α} {e : ε}
    (h : ∀ a ∈ before, ∃ b, f a = .ok b) (ha : f a = .error e) :
    (before ++ a :: after).mapM f = .error e := by
  induction before with
  | nil =>
    rw [List.nil_append, List.mapM_cons, ha]
    rfl
  | cons c before ih =>
    obtain ⟨⟨b, hb⟩, hmore⟩ := List.forall_mem_cons.mp h
    rw [List.cons_append, List.mapM_cons, hb, ih hmore]
    rfl

end Success

def FailsWith {ε α : Type} (P : ε → Prop) (x : Except ε α) : Prop := ∀ e, x = .error e → P e

namespace FailsWith
variable {ε α β : Type} {P : ε → Prop}

theorem ok (a : α) : FailsWith P (.ok a : Except ε α) := nofun

theorem error {e : ε} (h : P e) : FailsWith P (.error e : Except ε α) := by
  rintro _ ⟨⟩
  exact h

theorem bind {x : Except ε α} (h : FailsWith P x) {f : α → Except ε β} (hf : ∀ a, FailsWith P (f a)) :
    FailsWith P (x >>= f) := by
  cases x with
  | ok a => exact hf a
  | error e => exact error (h e rfl)

theorem map {x : Except ε α} (h : FailsWith P x) (f : α → β) : FailsWith P (x.map f) := by
  cases x with
  | ok a => exact ok (f a)
  | error e => exact error (h e rfl)

theorem mapM {f : α → Except ε β} {items : List α} (h : ∀ a ∈ items, FailsWith P (f a)) :
    FailsWith P (items.mapM f) := by
  induction items with
  | nil => exact ok []
  | cons a items ih =>
    obtain ⟨ha, hmore⟩ := List.forall_mem_cons.mp h
    rw [List.mapM_cons]
    exact ha.bind fun b => (ih hmore).bind fun results => ok (b :: results)

theorem filterM {f : α → Except ε Bool} {items : List α} (h : ∀ a ∈ items, FailsWith P (f a)) :
    FailsWith P (items.filterM f) := by
  have hfound (found : List α) : FailsWith P (items.filterAuxM f found) := by
    induction items generalizing found with
    | nil => exact ok found
    | cons a items ih =>
      obtain ⟨ha, hmore⟩ := List.forall_mem_cons.mp h
      exact ha.bind fun keeps => ih hmore _
  exact (hfound []).bind fun found => ok found.reverse

end FailsWith

/-- Where the strict computation succeeds, the lenient one has the same result. -/
def Covers {ε α : Type} (lenient strict : Except ε α) : Prop := ∀ a, strict = .ok a → lenient = .ok a

namespace Covers
variable {ε δ α β : Type}

theorem refl (x : Except ε α) : Covers x x := fun _ h => h

theorem of_error (x : Except ε α) (e : ε) : Covers x (.error e) := fun _ h => nomatch h

theorem bind {x y : Except ε α} (h : Covers y x) {f g : α → Except ε β}
    (hfg : ∀ a, x = .ok a → Covers (g a) (f a)) : Covers (y >>= g) (x >>= f) := by
  intro b hb
  obtain ⟨a, hx, hf⟩ := exists_of_bind_eq_ok hb
  rw [h a hx]
  exact hfg a hx b hf

theorem mapError {x y : Except ε α} (h : Covers y x) (f : ε → δ) :
    Covers (y.mapError f) (x.mapError f) := by
  intro a ha
  rw [h a (eq_ok_of_mapError ha)]
  rfl

/-- Steps over some items, from states that the strict steps keep to. -/
theorem foldlM (keeps : β → Prop) {f g : β → α → Except ε β} {items : List α}
    (step : ∀ a ∈ items, ∀ b, keeps b → Covers (g b a) (f b a) ∧ ∀ next, f b a = .ok next → keeps next)
    {b : β} (hb : keeps b) : Covers (items.foldlM g b) (items.foldlM f b) := by
  induction items generalizing b with
  | nil => exact .refl _
  | cons a items ih =>
    obtain ⟨hfirst, hmore⟩ := List.forall_mem_cons.mp step
    rw [List.foldlM_cons, List.foldlM_cons]
    exact (hfirst b hb).1.bind fun next hnext => ih hmore ((hfirst b hb).2 next hnext)

end Covers
end Tabulate

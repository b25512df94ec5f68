import Tabulate.Token.Basic

/-! Readers of tokens: what they find, what they leave, and which tokens are to blame where they fail. -/
namespace Tabulate

/-- Some tokens are left of others: they are the end of them, in the same source. -/
structure Tokens.IsRestOf (us ts : Tokens) : Prop where
  suffix : us.rest <:+ ts.rest
  finish : us.finish = ts.finish

namespace Tokens
variable {ts us vs : Tokens}

theorem IsRestOf.refl (ts : Tokens) : ts.IsRestOf ts := ⟨List.suffix_rfl, rfl⟩

theorem IsRestOf.trans (h : vs.IsRestOf us) (hus : us.IsRestOf ts) : vs.IsRestOf ts :=
  ⟨h.suffix.trans hus.suffix, h.finish.trans hus.finish⟩

theorem IsRestOf.length_le (h : us.IsRestOf ts) : us.rest.length ≤ ts.rest.length := h.suffix.length_le

theorem isRestOf_tail (ts : Tokens) : ts.tail.IsRestOf ts := ⟨List.tail_suffix ts.rest, rfl⟩

theorem isRestOf_eat? {symbol : String} (h : ts.eat? symbol = some us) : us.IsRestOf ts := by
  rw [eat?, Option.ite_none_right_eq_some, Option.some.injEq] at h
  rw [← h.2]
  exact ts.isRestOf_tail

theorem isRestOf_eatWord? {word : String} (h : ts.eatWord? word = some us) : us.IsRestOf ts := by
  rw [eatWord?, Option.ite_none_right_eq_some, Option.some.injEq] at h
  rw [← h.2]
  exact ts.isRestOf_tail

end Tokens

section Readers
variable {ε α β : Type}

def Settles (blames : Tokens → ε → Prop) (finds : α → Prop) (ts : Tokens) (x : Except ε α) : Prop :=
  match x with
  | .ok a => finds a
  | .error e => ∃ us : Tokens, us.IsRestOf ts ∧ blames us e

/-- A reading of tokens finds something of a kind and leaves some of them, or some of them are to blame. -/
def Reads (blames : Tokens → ε → Prop) (finds : α → Prop) (ts : Tokens) (x : Except ε (α × Tokens)) : Prop :=
  Settles blames (fun found => finds found.1 ∧ found.2.IsRestOf ts) ts x

/-- A reading that finds nothing of its own. -/
def Passes (blames : Tokens → ε → Prop) (ts : Tokens) (x : Except ε Tokens) : Prop :=
  Settles blames (fun us => us.IsRestOf ts) ts x

variable {blames : Tokens → ε → Prop} {ts us : Tokens}

namespace Settles
variable {p : α → Prop} {q : β → Prop} {x : Except ε α}

theorem error {e : ε} (h : us.IsRestOf ts) (he : blames us e) :
    Settles blames p ts (.error e : Except ε α) := ⟨us, h, he⟩

theorem bind (h : Settles blames p ts x) {f : α → Except ε β}
    (hf : ∀ a, p a → Settles blames q ts (f a)) : Settles blames q ts (x >>= f) := by
  cases x with
  | ok a => exact hf a h
  | error e => exact h

/-- What is found with tokens that are left is found with those that they are left of. -/
theorem after (h : Settles blames p us x) (hus : us.IsRestOf ts) : Settles blames p ts x := by
  cases x with
  | ok a => exact h
  | error e =>
    obtain ⟨vs, hvs, he⟩ := h
    exact ⟨vs, hvs.trans hus, he⟩

theorem mono (h : Settles blames p ts x) {p' : α → Prop} (hp : ∀ a, p a → p' a) :
    Settles blames p' ts x := by
  cases x with
  | ok a => exact hp a h
  | error e => exact h

theorem of_eq_ok {a : α} (h : Settles blames p ts x) (hx : x = .ok a) : p a := by
  subst hx
  exact h

theorem of_eq_error {e : ε} (h : Settles blames p ts x) (hx : x = .error e) :
    ∃ us : Tokens, us.IsRestOf ts ∧ blames us e := by
  subst hx
  exact h

end Settles

namespace Reads
variable {p : α → Prop} {q : β → Prop} {x : Except ε (α × Tokens)}

theorem ok {a : α} (ha : p a) (h : us.IsRestOf ts) : Reads blames p ts (.ok (a, us)) := ⟨ha, h⟩

theorem error {e : ε} (h : us.IsRestOf ts) (he : blames us e) :
    Reads blames p ts (.error e : Except ε (α × Tokens)) := Settles.error h he

/-- A reading of tokens that are left reads the tokens that they are left of. -/
theorem after (h : Reads blames p us x) (hus : us.IsRestOf ts) : Reads blames p ts x :=
  (Settles.after h hus).mono fun _ found => ⟨found.1, found.2.trans hus⟩

theorem bind (h : Reads blames p ts x) {f : α × Tokens → Except ε (β × Tokens)}
    (hf : ∀ a us, p a → us.IsRestOf ts → Reads blames q ts (f (a, us))) : Reads blames q ts (x >>= f) :=
  Settles.bind h fun (a, us) found => hf a us found.1 found.2

end Reads

theorem Passes.bind {x : Except ε Tokens} (h : Passes blames us x) (hus : us.IsRestOf ts)
    {q : β → Prop} {f : Tokens → Except ε (β × Tokens)}
    (hf : ∀ vs : Tokens, vs.IsRestOf ts → Reads blames q ts (f vs)) : Reads blames q ts (x >>= f) :=
  Settles.bind (Settles.after h hus |>.mono fun _ found => found.trans hus) hf

end Readers
end Tabulate

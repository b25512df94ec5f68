import Tabulate.Groq.Parser
import Tabulate.Proofs.Token.Rest

/-! What the parts of the parser for GROQ leave, and the tokens at which a failure lies. -/
namespace Tabulate.Groq

def Blames (ts : Tokens) (e : SyntaxError) : Prop := e.position = ts.position

/-- A reading leaves some of its tokens, whatever it finds, or fails at one of them. -/
abbrev Leaves {α : Type} (ts : Tokens) (x : Except SyntaxError (α × Tokens)) : Prop :=
  Reads Blames (fun _ => True) ts x

section Steps
variable {α β : Type} {ts us : Tokens}

private theorem ok_leaves (h : us.IsRestOf ts) (a : α) : Leaves ts (.ok (a, us)) := .ok trivial h

private theorem fail_leaves (h : us.IsRestOf ts) (fault : Fault) : Leaves (α := α) ts (fail us.position fault) :=
  .error h rfl

theorem expect_passes (ts : Tokens) (symbol : String) : Passes Blames ts (expect ts symbol) := by
  unfold expect
  cases h : ts.eat? symbol with
  | none => exact ⟨ts, .refl ts, rfl⟩
  | some us => exact Tokens.isRestOf_eat? h

/-- What was found is done when a symbol comes next. -/
theorem expect_leaves (h : us.IsRestOf ts) (symbol : String) (a : α) :
    Leaves ts (expect us symbol >>= fun us => .ok (a, us)) :=
  (expect_passes us symbol).bind h fun _ hvs => ok_leaves hvs a

end Steps

section Paths

private theorem readSteps_settles (rest : List Lexeme) (finish : Nat) :
    Settles Blames (fun found => found.2 <:+ rest) ⟨rest, finish⟩ (readSteps rest finish) := by
  fun_induction readSteps rest finish with
  | case1 point name named rest finish ih =>
    have hrest : (⟨rest, finish⟩ : Tokens).IsRestOf ⟨⟨.symbol ".", point⟩ :: ⟨.ident name, named⟩ :: rest, finish⟩ :=
      ⟨List.suffix_append [_, _] rest, rfl⟩
    exact Settles.bind (ih.after hrest) fun found hfound => hfound.trans hrest.suffix
  | case2 point rest finish _ =>
    have hrest : (⟨rest.tail, finish⟩ : Tokens).IsRestOf ⟨⟨.symbol ".", point⟩ :: rest, finish⟩ :=
      ⟨(List.tail_suffix rest).trans (List.suffix_cons _ rest), rfl⟩
    exact Settles.error hrest rfl
  | case3 opened n number closed rest finish ih =>
    have hrest : (⟨rest, finish⟩ : Tokens).IsRestOf
        ⟨⟨.symbol "[", opened⟩ :: ⟨.number n, number⟩ :: ⟨.symbol "]", closed⟩ :: rest, finish⟩ :=
      ⟨List.suffix_append [_, _, _] rest, rfl⟩
    exact Settles.bind (ih.after hrest) fun found hfound => hfound.trans hrest.suffix
  | case4 rest => exact List.suffix_rfl

private theorem readPath_leaves (ts : Tokens) : Leaves ts (readPath ts) := by
  have hsteps (path : Path → Path) : Leaves ts (readSteps ts.tail.rest ts.finish >>= fun found =>
      .ok (path found.1, { ts with rest := found.2 })) := by
    refine Settles.bind ((readSteps_settles ts.tail.rest ts.finish).after ts.isRestOf_tail) fun found hfound => ?_
    have hrest : (⟨found.2, ts.finish⟩ : Tokens).IsRestOf ts := ⟨hfound.trans ts.isRestOf_tail.suffix, rfl⟩
    exact ok_leaves hrest _
  unfold readPath
  split
  next name _ => exact hsteps (.key name :: ·)
  next => exact hsteps id
  next => exact fail_leaves ts.isRestOf_tail _

end Paths

section Expressions

/-- The parts of an expression, which read each other, with so many steps. -/
structure PartsLeave (n : Nat) : Prop where
  or (ts : Tokens) : Leaves ts (readOr n ts)
  moreOr (left : Expr) (ts : Tokens) : Leaves ts (readMoreOr n left ts)
  and (ts : Tokens) : Leaves ts (readAnd n ts)
  moreAnd (left : Expr) (ts : Tokens) : Leaves ts (readMoreAnd n left ts)
  unary (ts : Tokens) : Leaves ts (readUnary n ts)
  comparison (ts : Tokens) : Leaves ts (readComparison n ts)
  primary (ts : Tokens) : Leaves ts (readPrimary n ts)
  items (ts : Tokens) : Leaves ts (readItems n ts)

section Parts
variable {n : Nat} (parts : PartsLeave n)
include parts

private theorem readOr_succ (ts : Tokens) : Leaves ts (readOr (n + 1) ts) := by
  rw [readOr]
  exact (parts.and ts).bind fun left us _ hus => (parts.moreOr left us).after hus

private theorem readMoreOr_succ (left : Expr) (ts : Tokens) : Leaves ts (readMoreOr (n + 1) left ts) := by
  rw [readMoreOr]
  split
  next => exact ok_leaves (.refl ts) left
  next after hbars =>
    exact ((parts.and after).after (Tokens.isRestOf_eat? hbars)).bind fun right us _ hus =>
      (parts.moreOr _ us).after hus

private theorem readAnd_succ (ts : Tokens) : Leaves ts (readAnd (n + 1) ts) := by
  rw [readAnd]
  exact (parts.unary ts).bind fun left us _ hus => (parts.moreAnd left us).after hus

private theorem readMoreAnd_succ (left : Expr) (ts : Tokens) : Leaves ts (readMoreAnd (n + 1) left ts) := by
  rw [readMoreAnd]
  split
  next => exact ok_leaves (.refl ts) left
  next after hamps =>
    exact ((parts.unary after).after (Tokens.isRestOf_eat? hamps)).bind fun right us _ hus =>
      (parts.moreAnd _ us).after hus

private theorem readUnary_succ (ts : Tokens) : Leaves ts (readUnary (n + 1) ts) := by
  rw [readUnary]
  split
  next after hnot =>
    exact ((parts.unary after).after (Tokens.isRestOf_eat? hnot)).bind fun inner us _ hus => ok_leaves hus _
  next => exact parts.comparison ts

private theorem readComparison_succ (ts : Tokens) : Leaves ts (readComparison (n + 1) ts) := by
  rw [readComparison]
  refine (parts.primary ts).bind fun left us _ hus => ?_
  dsimp only
  split
  next =>
    have htail := us.isRestOf_tail.trans hus
    exact ((parts.primary us.tail).after htail).bind fun right vs _ hvs => ok_leaves hvs _
  next =>
    split
    next after hin =>
      have hafter := (Tokens.isRestOf_eatWord? hin).trans hus
      exact ((parts.primary after).after hafter).bind fun right vs _ hvs => ok_leaves hvs _
    next => exact ok_leaves hus left

private theorem readPrimary_succ (ts : Tokens) : Leaves ts (readPrimary (n + 1) ts) := by
  rw [readPrimary]
  dsimp only
  split
  case h_1 | h_3 | h_4 | h_8 | h_9 | h_10 => exact ok_leaves ts.isRestOf_tail _
  case h_2 => exact ok_leaves (ts.tail.isRestOf_tail.trans ts.isRestOf_tail) _
  case h_5 =>
    exact ((parts.or ts.tail).after ts.isRestOf_tail).bind fun inner us _ hus => expect_leaves hus ")" inner
  case h_6 =>
    split
    next after hclose => exact ok_leaves ((Tokens.isRestOf_eat? hclose).trans ts.isRestOf_tail) _
    next => exact ((parts.items ts.tail).after ts.isRestOf_tail).bind fun items us _ hus => ok_leaves hus _
  case h_7 =>
    refine ((parts.primary ts.tail.tail).after (ts.tail.isRestOf_tail.trans ts.isRestOf_tail)).bind ?_
    exact fun inner us _ hus => expect_leaves hus ")" (Expr.defined inner)
  case h_11 | h_12 => exact (readPath_leaves ts).bind fun path us _ hus => ok_leaves hus _
  case h_13 | h_14 => exact fail_leaves (.refl ts) _

private theorem readItems_succ (ts : Tokens) : Leaves ts (readItems (n + 1) ts) := by
  rw [readItems]
  refine (parts.primary ts).bind fun item us _ hus => ?_
  dsimp only
  split
  next after hclose => exact ok_leaves ((Tokens.isRestOf_eat? hclose).trans hus) _
  next =>
    refine (expect_passes us _).bind hus fun vs hvs => ?_
    exact ((parts.items vs).after hvs).bind fun more ws _ hws => ok_leaves hws _

end Parts

private theorem partsLeave (n : Nat) : PartsLeave n := by
  induction n with
  | zero =>
    have hfail {α : Type} (ts : Tokens) : Leaves (α := α) ts (fail ts.position .unexpectedEnd) :=
      fail_leaves (.refl ts) _
    exact ⟨hfail, fun _ => hfail, hfail, fun _ => hfail, hfail, hfail, hfail, hfail⟩
  | succ n ih =>
    exact ⟨readOr_succ ih, readMoreOr_succ ih, readAnd_succ ih, readMoreAnd_succ ih, readUnary_succ ih,
      readComparison_succ ih, readPrimary_succ ih, readItems_succ ih⟩

private theorem readExpr_leaves (ts : Tokens) : Leaves ts (readExpr ts) := (partsLeave _).or ts

end Expressions

section Segments

private theorem isRestOf_readInteger? {ts us : Tokens} {i : Int} (h : readInteger? ts = some (i, us)) :
    us.IsRestOf ts := by
  unfold readInteger? at h
  split at h
  · obtain ⟨-, heq⟩ := Option.ite_none_right_eq_some.mp h
    cases heq
    exact ts.isRestOf_tail
  · obtain ⟨-, heq⟩ := Option.ite_none_right_eq_some.mp h
    cases heq
    exact ts.tail.isRestOf_tail.trans ts.isRestOf_tail
  · contradiction

private theorem slice_leaves (first : Int) (inclusive : Bool) (ts : Tokens) :
    Leaves ts (readRange?.slice first inclusive ts) := by
  unfold readRange?.slice
  split
  next => exact fail_leaves (.refl ts) _
  next last us hlast => exact expect_leaves (isRestOf_readInteger? hlast) _ _

private theorem readRange?_settles (ts : Tokens) :
    Settles Blames (fun found => ∀ segment us, found = some (segment, us) → us.IsRestOf ts) ts (readRange? ts) := by
  have hslice {us vs : Tokens} (first : Int) (inclusive : Bool) {symbol : String} (hus : us.IsRestOf ts)
      (hvs : us.eat? symbol = some vs) :
      Settles Blames (fun found => ∀ segment us, found = some (segment, us) → us.IsRestOf ts) ts
        ((readRange?.slice first inclusive vs).map some) := by
    have hleaves := (slice_leaves first inclusive vs).after ((Tokens.isRestOf_eat? hvs).trans hus)
    cases hread : readRange?.slice first inclusive vs with
    | error e => exact Settles.of_eq_error hleaves hread
    | ok found =>
      rintro segment us ⟨⟩
      exact (Settles.of_eq_ok hleaves hread).2
  unfold readRange?
  split
  next => exact nofun
  next first us hfirst =>
    have hus := isRestOf_readInteger? hfirst
    split
    next after hclose =>
      rintro segment us ⟨⟩
      exact (Tokens.isRestOf_eat? hclose).trans hus
    next =>
      split
      next => exact nofun
      next hdots => exact hslice first true hus hdots
      next hdots => exact hslice first false hus hdots

private theorem readEntry_leaves (ts : Tokens) : Leaves ts (readEntry ts) := by
  unfold readEntry
  split
  · exact ok_leaves ts.isRestOf_tail _
  · refine (expect_passes _ _).bind ts.isRestOf_tail fun us hus => ?_
    exact ((readExpr_leaves us).after hus).bind fun value vs _ hvs => ok_leaves hvs _
  · refine (expect_passes _ _).bind ts.isRestOf_tail fun us hus => ?_
    exact ((readExpr_leaves us).after hus).bind fun value vs _ hvs => ok_leaves hvs _
  · refine (readPath_leaves ts).bind fun path us _ hus => ?_
    dsimp only
    split
    · exact ok_leaves hus _
    · exact fail_leaves hus _

private theorem readEntries_leaves (n : Nat) (ts : Tokens) : Leaves ts (readEntries n ts) := by
  induction n generalizing ts with
  | zero => exact fail_leaves (.refl ts) _
  | succ n ih =>
    rw [readEntries]
    split
    next after hclose => exact ok_leaves (Tokens.isRestOf_eat? hclose) _
    next =>
      refine (readEntry_leaves ts).bind fun entry us _ hus => ?_
      dsimp only
      split
      next after hcomma =>
        exact ((ih after).after ((Tokens.isRestOf_eat? hcomma).trans hus)).bind fun more vs _ hvs => ok_leaves hvs _
      next => exact expect_leaves hus _ _

private theorem isRestOf_readDirection (ts : Tokens) : (readDirection ts).2.IsRestOf ts := by
  unfold readDirection
  split
  next after hdesc => exact Tokens.isRestOf_eatWord? hdesc
  next =>
    cases hasc : ts.eatWord? "asc" with
    | none => exact .refl ts
    | some after => exact Tokens.isRestOf_eatWord? hasc

private theorem readKeys_leaves (n : Nat) (ts : Tokens) : Leaves ts (readKeys n ts) := by
  induction n generalizing ts with
  | zero => exact fail_leaves (.refl ts) _
  | succ n ih =>
    rw [readKeys]
    refine (readPath_leaves ts).bind fun path us _ hus => ?_
    have hdirection := (isRestOf_readDirection us).trans hus
    dsimp only
    split
    next after hclose => exact ok_leaves ((Tokens.isRestOf_eat? hclose).trans hdirection) _
    next =>
      refine (expect_passes _ _).bind hdirection fun vs hvs => ?_
      exact ((ih vs).after hvs).bind fun more ws _ hws => ok_leaves hws _

private theorem readSegment_leaves (ts : Tokens) : Leaves ts (readSegment ts) := by
  unfold readSegment
  split
  · refine Settles.bind ((readRange?_settles ts.tail).after ts.isRestOf_tail) fun found hfound => ?_
    cases found with
    | some found => exact ok_leaves ((hfound _ _ rfl).trans ts.isRestOf_tail) _
    | none =>
      change Leaves ts (readExpr ts.tail >>= _)
      refine Reads.bind ((readExpr_leaves ts.tail).after ts.isRestOf_tail) fun condition us _ hus => ?_
      exact expect_leaves hus "]" (Segment.filter condition)
  · exact ((readEntries_leaves _ ts.tail).after ts.isRestOf_tail).bind fun entries us _ hus => ok_leaves hus _
  · split
    next => exact fail_leaves ts.isRestOf_tail _
    next after horder =>
      refine (expect_passes after _).bind ((Tokens.isRestOf_eatWord? horder).trans ts.isRestOf_tail) fun us hus => ?_
      exact ((readKeys_leaves _ us).after hus).bind fun keys vs _ hvs => ok_leaves hvs _
  · exact fail_leaves (.refl ts) _

private theorem readSegments_settles (n : Nat) (ts : Tokens) :
    Settles Blames (fun _ => True) ts (readSegments n ts) := by
  induction n generalizing ts with
  | zero => trivial
  | succ n ih =>
    rw [readSegments]
    split
    · trivial
    · exact Settles.bind (readSegment_leaves ts) fun (segment, us) ⟨_, hus⟩ =>
        ((ih us).after hus).bind fun _ _ => trivial

/-- A query is read from its tokens. -/
theorem parse_settles {source : String} {ts : Tokens} (h : Token.stream source false = .ok ts) :
    Settles Blames (fun _ => True) ts (Query.parse source) := by
  rw [Query.parse, h]
  have hstart : Settles Blames (· = ts) ts (Except.ok ts : Except SyntaxError Tokens) := rfl
  refine hstart.bind fun us hus => ?_
  subst hus
  split
  · trivial
  · split
    next => exact .error (.refl us) rfl
    next ws hstar =>
      exact ((readSegments_settles _ ws).after (Tokens.isRestOf_eat? hstar)).bind fun _ _ => trivial

end Segments
end Tabulate.Groq

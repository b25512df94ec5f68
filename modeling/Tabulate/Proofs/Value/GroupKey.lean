import Tabulate.Proofs.Json.Injectivity
import Tabulate.Proofs.Value.Fields

/-! Values have one group key if and only if they are equal and their objects list their fields in the
same order: equality does not see that order, but the text that is the key shows it. -/
namespace Tabulate

namespace Number

private theorem signed_inj {s t : Bool} {k l : Nat} :
    signed s k = signed t l ↔ k = l ∧ (s = t ∨ k = 0) := by
  cases s <;> cases t <;> simp [signed] <;> omega

/-- Equal finite numbers differ at most in the sign of zero. -/
theorem same_finite {s t : Bool} {m n : Magnitude} :
    (finite s m).same (finite t n) = true ↔ m.units = n.units ∧ (s = t ∨ m.units = 0) := by
  rw [← signed_inj]
  simp [same, compare?, place]

private theorem exists_of_isFinite {n : Number} (h : n.isFinite = true) : ∃ negative m, n = finite negative m := by
  cases n with
  | nan | infinite => contradiction
  | finite negative m => exact ⟨negative, m, rfl⟩

private theorem units_eq_of_toInt64 {s t : Bool} {m n : Magnitude} (hm : (finite s m).isIntegral = true)
    (hn : (finite t n).isIntegral = true) (h : (finite s m).toInt64 = (finite t n).toInt64) :
    m.units = n.units ∧ (s = t ∨ m.units = 0) := by
  obtain ⟨s, m, ⟨⟩, hm, small⟩ := isIntegral_cases hm
  obtain ⟨t, n, ⟨⟩, hn, small'⟩ := isIntegral_cases hn
  have hunits := Nat.div_mul_cancel (Nat.dvd_of_mod_eq_zero hm)
  have hunits' := Nat.div_mul_cancel (Nat.dvd_of_mod_eq_zero hn)
  rw [toInt64_finite small, toInt64_finite small', signed_inj] at h
  obtain ⟨hwhole, hsign⟩ := h
  refine ⟨by rw [← hunits, hwhole, hunits'], hsign.imp_right fun hzero => ?_⟩
  rw [← hunits, hzero, Nat.zero_mul]

end Number

namespace Json.Tree
open Number

private theorem kind_ofNumber (n : Number) : (ofNumber n).kind = .number := by
  unfold ofNumber
  split <;> rfl

/-- Both zeros are written as one. -/
theorem ofNumber_zero (negative : Bool) : ofNumber (zero negative) = integer 0 := by
  have hintegral : ∀ b, (zero b).isIntegral = true := by decide +kernel
  have hwhole : ∀ b, (zero b).toInt64 = 0 := by decide +kernel
  rw [ofNumber, if_pos (hintegral negative), hwhole]

/-- Finite numbers are written alike if they are equal. -/
theorem ofNumber_eq_iff {m n : Number} (hm : m.isFinite = true) (hn : n.isFinite = true) :
    ofNumber m = ofNumber n ↔ m.same n = true := by
  obtain ⟨s, m, rfl⟩ := exists_of_isFinite hm
  obtain ⟨t, n, rfl⟩ := exists_of_isFinite hn
  rw [same_finite]
  constructor
  · intro h
    rw [ofNumber, ofNumber] at h
    split at h
    next integral =>
      split at h
      next integral' =>
        exact units_eq_of_toInt64 integral integral' (integer.inj h)
      next => cases h
    next =>
      split at h
      next => cases h
      next =>
        cases float.inj h
        exact ⟨rfl, .inl rfl⟩
  · obtain ⟨units, representable⟩ := m
    obtain ⟨units', representable'⟩ := n
    rintro ⟨rfl, rfl | rfl⟩
    · rfl
    · exact (ofNumber_zero s).trans (ofNumber_zero t).symm

end Json.Tree

namespace Value
open Json

/-- All numbers are finite, and objects are maps: none has a key twice. -/
inductive Proper : Value → Prop
  | null : Proper .null
  | bool (b : Bool) : Proper (.bool b)
  | number {n : Number} (h : n.isFinite = true) : Proper (.number n)
  | string (s : String) : Proper (.string s)
  | array {items : List Value} (h : ∀ v ∈ items, v.Proper) : Proper (.array items)
  | object {fields : Fields} (distinct : (fields.map Prod.fst).Nodup) (h : ∀ f ∈ fields, f.2.Proper) :
      Proper (.object fields)

mutual

/-- Objects in the same place list the same keys in the same order. -/
def SameOrder : Value → Value → Prop
  | array xs, array ys => SameOrderItems xs ys
  | object xs, object ys => SameOrderFields xs ys
  | _, _ => True

def SameOrderItems : List Value → List Value → Prop
  | x :: xs, y :: ys => SameOrder x y ∧ SameOrderItems xs ys
  | _, _ => True

def SameOrderFields : List (String × Value) → List (String × Value) → Prop
  | [], [] => True
  | (key, x) :: xs, (key', y) :: ys => key = key' ∧ SameOrder x y ∧ SameOrderFields xs ys
  | _, _ => False

end

section Kinds

def kind : Value → Kind
  | null => .null
  | bool _ => .bool
  | number _ => .number
  | string _ => .string
  | array _ => .array
  | object _ => .object

private theorem kind_ofValue (v : Value) : (Tree.ofValue v).kind = v.kind := by
  cases v with
  | number n => exact Tree.kind_ofNumber n
  | _ => rfl

private theorem kind_eq_of_same {a b : Value} (h : a.same b = true) : a.kind = b.kind := by
  cases a <;> cases b <;> first | rfl | simp [same] at h

end Kinds

section Documents

private theorem ofItems_eq_map (items : List Value) : Tree.ofItems items = items.map Tree.ofValue := by
  induction items with
  | nil => rfl
  | cons v items ih => rw [Tree.ofItems, ih, List.map_cons]

private theorem ofFields_eq_map (fields : Fields) :
    Tree.ofFields fields = fields.map fun f => (f.1, Tree.ofValue f.2) := by
  induction fields with
  | nil => rfl
  | cons f fields ih => rw [Tree.ofFields, ih, List.map_cons]

private theorem Proper.isFinite_ofValue {v : Value} (h : v.Proper) : (Tree.ofValue v).IsFinite := by
  induction h with
  | null => exact .null
  | bool b => exact .bool b
  | @number n h =>
    rw [Tree.ofValue, Tree.ofNumber]
    split
    · exact .integer _
    · exact .float h
  | string s => exact .string s
  | @array items _ ih =>
    rw [Tree.ofValue, ofItems_eq_map]
    exact .array (List.forall_mem_map.mpr ih)
  | @object fields _ _ ih =>
    rw [Tree.ofValue, ofFields_eq_map]
    exact .object (List.forall_mem_map.mpr ih)

private theorem ofItems_eq_iff {xs ys : List Value}
    (h : ∀ x ∈ xs, ∀ y ∈ ys, Tree.ofValue x = Tree.ofValue y ↔ x.same y = true ∧ x.SameOrder y) :
    Tree.ofItems xs = Tree.ofItems ys ↔ sameItems xs ys = true ∧ SameOrderItems xs ys := by
  induction xs generalizing ys with
  | nil => cases ys <;> simp [Tree.ofItems, sameItems, SameOrderItems]
  | cons x xs ih =>
    cases ys with
    | nil => simp [Tree.ofItems, sameItems]
    | cons y ys =>
      have hfirst := h x List.mem_cons_self y List.mem_cons_self
      have hrest := ih fun x hx y hy => h x (List.mem_cons_of_mem _ hx) y (List.mem_cons_of_mem _ hy)
      rw [Tree.ofItems, Tree.ofItems, List.cons.injEq, hfirst, hrest, sameItems, SameOrderItems,
        Bool.and_eq_true, and_and_and_comm]

-- Equality looks a field up among all fields of the other object, of which `front` are those before
-- the place that the induction has come to.
private theorem ofFields_eq_iff {xs : Fields} : ∀ (front : Fields) {ys : Fields},
    ((front ++ ys).map Prod.fst).Nodup →
    (∀ f ∈ xs, ∀ g ∈ ys,
      Tree.ofValue f.2 = Tree.ofValue g.2 ↔ f.2.same g.2 = true ∧ f.2.SameOrder g.2) →
    (Tree.ofFields xs = Tree.ofFields ys ↔
      (xs.length = ys.length ∧ sameFields xs (front ++ ys) = true) ∧ SameOrderFields xs ys) := by
  induction xs with
  | nil =>
    intro front ys _ _
    rcases ys with _ | ⟨⟨key', y⟩, ys⟩ <;> simp [Tree.ofFields, sameFields, SameOrderFields]
  | cons field xs ih =>
    intro front ys distinct h
    obtain ⟨key, x⟩ := field
    cases ys with
    | nil => simp [Tree.ofFields]
    | cons field' ys =>
      obtain ⟨key', y⟩ := field'
      by_cases hkey : key = key'
      · subst hkey
        have hfirst := h (key, x) List.mem_cons_self (key, y) List.mem_cons_self
        have hrest := ih (front ++ [(key, y)]) (by rwa [List.append_assoc])
          fun f hf g hg => h f (List.mem_cons_of_mem _ hf) g (List.mem_cons_of_mem _ hg)
        have hnew : key ∉ front.map Prod.fst := by
          rw [List.map_append, List.nodup_append] at distinct
          exact fun hmem => distinct.2.2 key hmem key List.mem_cons_self rfl
        have hget : Fields.get? (front ++ (key, y) :: ys) key = some y := by
          rw [Fields.get?_append_of_notMem hnew, Fields.get?_cons, if_pos rfl]
        rw [List.append_assoc, List.singleton_append] at hrest
        simp only [Tree.ofFields, List.cons.injEq, Prod.mk.injEq, true_and, hfirst, hrest, sameFields,
          hget, SameOrderFields, List.length_cons, Nat.add_right_cancel_iff, Bool.and_eq_true]
        tauto
      · simp [Tree.ofFields, SameOrderFields, hkey]

private theorem ofValue_eq_iff_of_kind_ne {a b : Value} (hkind : a.kind ≠ b.kind) :
    Tree.ofValue a = Tree.ofValue b ↔ a.same b = true ∧ a.SameOrder b := by
  refine iff_of_false (fun h => hkind ?_) fun h => hkind (kind_eq_of_same h.1)
  rw [← kind_ofValue, h, kind_ofValue]

/-- Values are written as one document if they are equal in the same order. -/
theorem Proper.ofValue_eq_iff {a b : Value} (ha : a.Proper) (hb : b.Proper) :
    Tree.ofValue a = Tree.ofValue b ↔ a.same b = true ∧ a.SameOrder b := by
  induction ha generalizing b with
  | null =>
    cases hb with
    | null => simp [same, SameOrder]
    | _ => exact ofValue_eq_iff_of_kind_ne nofun
  | bool b =>
    cases hb with
    | bool b' => simp [Tree.ofValue, same, SameOrder]
    | _ => exact ofValue_eq_iff_of_kind_ne nofun
  | number h =>
    cases hb with
    | number h' => simp [Tree.ofValue, same, SameOrder, Tree.ofNumber_eq_iff h h']
    | _ => exact ofValue_eq_iff_of_kind_ne nofun
  | string s =>
    cases hb with
    | string s' => simp [Tree.ofValue, same, SameOrder]
    | _ => exact ofValue_eq_iff_of_kind_ne nofun
  | array h ih =>
    cases hb with
    | array h' =>
      have hitems := ofItems_eq_iff fun x hx y hy => ih x hx (h' y hy)
      rw [Tree.ofValue, Tree.ofValue, Tree.array.injEq, hitems, same, SameOrder]
    | _ => exact ofValue_eq_iff_of_kind_ne nofun
  | object distinct h ih =>
    cases hb with
    | object distinct' h' =>
      have hfields := ofFields_eq_iff [] distinct' fun f hf g hg => ih f hf (h' g hg)
      rw [Tree.ofValue, Tree.ofValue, Tree.object.injEq, hfields, same, SameOrder, Bool.and_eq_true,
        beq_iff_eq, List.nil_append]
    | _ => exact ofValue_eq_iff_of_kind_ne nofun

/-- Values have one group key if and only if they are equal and list their fields in the same order. -/
theorem groupKey_eq_iff {a b : Value} (ha : a.Proper) (hb : b.Proper) :
    a.groupKey = b.groupKey ↔ a.same b = true ∧ a.SameOrder b := by
  rw [← ha.ofValue_eq_iff hb]
  constructor
  · exact Tree.text_inj ha.isFinite_ofValue hb.isFinite_ofValue
  · intro h
    rw [groupKey, groupKey, json, json, h]

def signedSample (negative : Bool) : Value :=
  .object
    [("b", .array [.number (Number.zero negative), .number (Number.ofDecimal false 5 (-1)), .string "0"]),
      ("a", .object [])]

theorem groupKey_eq_iff_signedSample :
    (signedSample true).Proper ∧ (signedSample false).Proper ∧
      (signedSample true).groupKey = (signedSample false).groupKey := by
  have hzero : ∀ negative, (Number.zero negative).isFinite = true := fun _ => rfl
  have hhalf : (Number.ofDecimal false 5 (-1)).isFinite = true := by decide +kernel
  have hproper : ∀ negative, (signedSample negative).Proper := by
    intro negative
    refine .object (by simp) (List.forall_mem_cons.mpr ⟨.array ?_, List.forall_mem_singleton.mpr ?_⟩)
    · exact List.forall_mem_cons.mpr ⟨.number (hzero negative), List.forall_mem_cons.mpr
        ⟨.number hhalf, List.forall_mem_singleton.mpr (.string "0")⟩⟩
    · exact .object List.nodup_nil nofun
  have hsame : (signedSample true).same (signedSample false) = true := by decide +kernel
  have horder : (signedSample true).SameOrder (signedSample false) := by
    simp [signedSample, SameOrder, SameOrderItems, SameOrderFields]
  exact ⟨hproper true, hproper false,
    (groupKey_eq_iff (hproper true) (hproper false)).mpr ⟨hsame, horder⟩⟩

def twoFields (reversed : Bool) : Value :=
  .object
    (if reversed then [("b", .number 2), ("a", .number 1)] else [("a", .number 1), ("b", .number 2)])

/-- Equal objects with their fields in different orders have different keys. -/
theorem groupKey_order :
    (∀ reversed, (twoFields reversed).Proper) ∧ (twoFields false).same (twoFields true) = true ∧
      (twoFields false).groupKey ≠ (twoFields true).groupKey := by
  have hnumber : ∀ n ∈ [1, 2], (Number.ofNat n).isFinite = true := by decide +kernel
  have hone : Proper (.number 1) := .number (hnumber 1 (by decide))
  have htwo : Proper (.number 2) := .number (hnumber 2 (by decide))
  refine ⟨fun reversed => ?_, by decide +kernel, by decide +kernel⟩
  cases reversed
  · exact .object (by decide) (List.forall_mem_cons.mpr ⟨hone, List.forall_mem_singleton.mpr htwo⟩)
  · exact .object (by decide) (List.forall_mem_cons.mpr ⟨htwo, List.forall_mem_singleton.mpr hone⟩)

end Documents

end Value
end Tabulate

import Tabulate.Frame.Series
import Tabulate.Proofs.Json.Injectivity

/-! Tuples of text cells have different texts: absence is told from the empty text, and no
text runs over the end of its cell. -/
namespace Tabulate.Cell
open Json

def IsText : Cell → Prop
  | null | string _ => True
  | number _ | timestamp _ => False

private theorem IsText.isFinite_toTree {c : Cell} (h : c.IsText) : c.toTree.IsFinite := by
  cases c with
  | null => exact .null
  | string s => exact .string s
  | number | timestamp => exact h.elim

private theorem toTree_inj {c d : Cell} (hc : c.IsText) (hd : d.IsText) (h : c.toTree = d.toTree) :
    c = d := by
  cases c with
  | null =>
    cases d with
    | null => rfl
    | string => cases h
    | number | timestamp => exact hd.elim
  | string s =>
    cases d with
    | null => cases h
    | string t => rw [Tree.string.inj h]
    | number | timestamp => exact hd.elim
  | number | timestamp => exact hc.elim

private theorem map_toTree_inj {ks ls : List Cell} (hk : ∀ c ∈ ks, c.IsText) (hl : ∀ c ∈ ls, c.IsText)
    (h : ks.map toTree = ls.map toTree) : ks = ls := by
  induction ks generalizing ls with
  | nil => exact (List.map_eq_nil_iff.mp h.symm).symm
  | cons c ks ih =>
    obtain ⟨d, ls, rfl, hfirst, hrest⟩ := List.map_eq_cons_iff.mp h.symm
    rw [toTree_inj (hk c List.mem_cons_self) (hl d List.mem_cons_self) hfirst.symm,
      ih (fun c hc => hk c (List.mem_cons_of_mem _ hc)) (fun c hc => hl c (List.mem_cons_of_mem _ hc))
        hrest.symm]

/-- Equal texts come from equal tuples of text cells. -/
theorem keyText_inj {k l : List Cell} (hk : ∀ c ∈ k, c.IsText) (hl : ∀ c ∈ l, c.IsText)
    (h : keyText k = keyText l) : k = l := by
  have hfinite : ∀ {cells : List Cell}, (∀ c ∈ cells, c.IsText) →
      (Tree.array (cells.map toTree)).IsFinite := fun h =>
    .array (List.forall_mem_map.mpr fun c hc => (h c hc).isFinite_toTree)
  exact map_toTree_inj hk hl (Tree.array.inj (Tree.text_inj (hfinite hk) (hfinite hl) h))

end Tabulate.Cell

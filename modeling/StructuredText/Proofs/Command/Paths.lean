import Mathlib.Data.List.Basic
import StructuredText.Command.Check

/-!
# Paths in order

Paths are compared part by part, which is an order (`Path.transCmp_compare`). Paths without `.`, empty parts and a slash
at the end are told apart by their parts (`Path.eq_of_compare`), and so paths put in order are sorted, each stands there
once, and they depend on nothing but the set of paths (`Check.inOrder_congr`).
-/

namespace StructuredText

open Std

namespace Path

/-! ## The order -/

/-- The name of a part; empty for the other parts. -/
def Part.text : Part → String
  | name s => s
  | _ => ""

/-- Parts are compared by their kinds, and then by their names. -/
theorem Part.compare_eq (a b : Part) : a.compare b = compareLex (compareOn rank) (compareOn text) a b := by
  cases a <;> cases b <;> rfl

instance : TransCmp Part.compare := by
  rw [show Part.compare = compareLex (compareOn Part.rank) (compareOn Part.text) from
    funext fun a => funext (Part.compare_eq a)]
  infer_instance

instance : LawfulEqCmp Part.compare where
  eq_of_compare {a b} h := by
    cases a <;> cases b <;> first | rfl | cases h | exact congrArg _ (LawfulEqOrd.eq_of_compare h)

theorem compareParts_eq (as bs : List Part) : compareParts as bs = List.compareLex Part.compare as bs := by
  induction as generalizing bs with
  | nil => cases bs <;> rfl
  | cons a as ih =>
    cases bs with
    | nil => rfl
    | cons b bs => rw [compareParts, List.compareLex_cons_cons, ih]

instance transCmp_compareParts : TransCmp compareParts := by
  rw [show compareParts = List.compareLex Part.compare from funext fun as => funext (compareParts_eq as)]
  infer_instance

theorem eq_of_compareParts {as bs : List Part} (h : compareParts as bs = .eq) : as = bs := by
  rw [compareParts_eq] at h
  exact LawfulEqCmp.eq_of_compare h

instance transCmp_compare : TransCmp compare where
  eq_swap := transCmp_compareParts.eq_swap
  isLE_trans := transCmp_compareParts.isLE_trans

/-! ## Paths and their parts -/

/-- The path is relative, and has no `.`, no doubled slash and no slash at its end. -/
def Plain (path : String) : Prop := ∀ segment ∈ segments path, segment ≠ [] ∧ segment ≠ ['.']

instance (path : String) : Decidable (Plain path) := inferInstanceAs (Decidable (∀ segment ∈ segments path, _))

theorem cut_ne_nil (segment cs : List Char) : segments.cut segment cs ≠ [] := by
  induction cs generalizing segment with
  | nil => exact List.cons_ne_nil _ _
  | cons c cs ih =>
    rw [segments.cut]
    split
    · exact List.cons_ne_nil _ _
    · exact ih (c :: segment)

/-- Whatever is cut at the slashes is put together again with slashes in between. -/
theorem intercalate_cut (segment cs : List Char) :
    ['/'].intercalate (segments.cut segment cs) = segment.reverse ++ cs := by
  induction cs generalizing segment with
  | nil => simp [segments.cut]
  | cons c cs ih =>
    rw [segments.cut]
    split
    · next hc =>
      rw [List.intercalate_cons_of_ne_nil (cut_ne_nil [] cs), ih, eq_of_beq hc]
      simp
    · rw [ih, List.reverse_cons, List.append_assoc, List.singleton_append]

theorem segments_injective {p q : String} (h : segments p = segments q) : p = q := by
  have hp := intercalate_cut [] p.toList
  rw [show segments.cut [] p.toList = segments.cut [] q.toList from h, intercalate_cut] at hp
  exact (String.toList_inj.1 hp).symm

/-- The part that a segment of a plain path stands for. -/
def partOf (segment : List Char) : Part :=
  if segment == ['.', '.'] then .up else .name (String.ofList segment)

theorem partOf_injective {a b : List Char} (h : partOf a = partOf b) : a = b := by
  unfold partOf at h
  split at h
  · next ha =>
    split at h
    · next hb => rw [eq_of_beq ha, eq_of_beq hb]
    · cases h
  · split at h
    · cases h
    · exact String.ofList_injective (Part.name.inj h)

theorem Plain.isAbsolute_eq {path : String} (h : Plain path) : isAbsolute path = false := by
  refine Bool.eq_false_iff.2 fun habsolute => ?_
  have hhead := eq_of_beq habsolute
  have hmem : [] ∈ segments path := by
    unfold segments
    cases hpath : path.toList with
    | nil =>
      rw [hpath] at hhead
      cases hhead
    | cons c cs =>
      rw [hpath] at hhead
      cases hhead
      exact List.mem_cons_self
  exact (h _ hmem).1 rfl

/-- The parts of a plain path are those of its segments. -/
theorem Plain.parts_eq {path : String} (h : Plain path) : parts path = (segments path).map partOf := by
  have hfront : (segments path).head? ≠ some ['.'] := fun hhead => (h _ (List.mem_of_head? hhead)).2 rfl
  have hsegment : ∀ segment ∈ segments path, (if segment.isEmpty || segment == ['.'] then none
      else if segment == ['.', '.'] then some Part.up else some (.name (String.ofList segment))) =
        some (partOf segment) := by
    intro segment hmem
    obtain ⟨hempty, hpoint⟩ := h segment hmem
    rw [if_neg (by simp [hempty, hpoint]), partOf]
    split <;> rfl
  rw [parts, h.isAbsolute_eq, if_neg Bool.false_ne_true, if_neg (by simpa using hfront), List.nil_append,
    List.filterMap_congr hsegment, ← List.filterMap_eq_map]
  rfl

theorem eq_of_compare {p q : String} (hp : Plain p) (hq : Plain q) (h : compare p q = .eq) : p = q := by
  have hparts := eq_of_compareParts h
  rw [hp.parts_eq, hq.parts_eq] at hparts
  exact segments_injective (List.map_injective_iff.2 (fun _ _ => partOf_injective) hparts)

/-! ## Paths put in order -/

/-- The paths are sorted, and each stands there once. -/
def Sorted (paths : List String) : Prop := paths.Pairwise fun p q => compare p q = .lt

theorem eq_or_mem_of_mem_insert {p q : String} {ps : List String} (h : q ∈ insert p ps) : q = p ∨ q ∈ ps := by
  induction ps with
  | nil => exact .inl (List.mem_singleton.1 h)
  | cons r ps ih =>
    rw [insert] at h
    split at h
    · exact List.mem_cons.1 h
    · exact .inr h
    · rcases List.mem_cons.1 h with rfl | h
      · exact .inr List.mem_cons_self
      · exact (ih h).imp_right (List.mem_cons_of_mem r)

theorem Sorted.insert {ps : List String} (h : Sorted ps) (p : String) : Sorted (insert p ps) := by
  induction ps with
  | nil => exact List.pairwise_singleton _ _
  | cons q ps ih =>
    obtain ⟨hq, hps⟩ := List.pairwise_cons.1 h
    rw [Path.insert]
    split
    · next hlt =>
      refine List.pairwise_cons.2 ⟨List.forall_mem_cons.2 ⟨hlt, fun r hr => ?_⟩, h⟩
      exact TransCmp.lt_trans hlt (hq r hr)
    · exact h
    · next hgt =>
      refine List.pairwise_cons.2 ⟨fun r hr => ?_, ih hps⟩
      rcases eq_or_mem_of_mem_insert hr with rfl | hr
      · exact OrientedCmp.lt_of_gt hgt
      · exact hq r hr

theorem Sorted.nodup {ps : List String} (h : Sorted ps) : ps.Nodup :=
  h.imp fun hlt heq => by
    rw [heq] at hlt
    exact OrientedCmp.not_lt_of_lt hlt hlt

/-- A plain path is put in among others unless it is there. -/
theorem mem_insert {p q : String} {ps : List String} (hp : Plain p) (hps : ∀ r ∈ ps, Plain r) :
    q ∈ insert p ps ↔ q = p ∨ q ∈ ps := by
  induction ps with
  | nil => simp [insert]
  | cons r ps ih =>
    obtain ⟨hr, hps⟩ := List.forall_mem_cons.1 hps
    rw [insert]
    split
    · rw [List.mem_cons]
    · next heq =>
      rw [eq_of_compare hp hr heq]
      simp
    · rw [List.mem_cons, ih hps, List.mem_cons]
      exact or_left_comm

end Path

namespace Check

theorem sorted_inOrder (paths : List String) : Path.Sorted (inOrder paths) := by
  suffices ∀ sorted, Path.Sorted sorted →
      Path.Sorted (paths.foldl (fun sorted path => Path.insert path sorted) sorted) from this [] .nil
  induction paths with
  | nil => exact fun _ h => h
  | cons p ps ih => exact fun sorted h => ih _ (h.insert p)

theorem mem_inOrder {p : String} {paths : List String} (h : ∀ q ∈ paths, Path.Plain q) :
    p ∈ inOrder paths ↔ p ∈ paths := by
  suffices ∀ sorted, (∀ q ∈ sorted, Path.Plain q) →
      (p ∈ paths.foldl (fun sorted path => Path.insert path sorted) sorted ↔ p ∈ sorted ∨ p ∈ paths) by
    rw [inOrder, this [] nofun]
    simp
  induction paths with
  | nil => simp
  | cons q ps ih =>
    intro sorted hsorted
    obtain ⟨hq, hps⟩ := List.forall_mem_cons.1 h
    have hinsert : ∀ r ∈ Path.insert q sorted, Path.Plain r := by
      intro r hr
      rcases Path.eq_or_mem_of_mem_insert hr with rfl | hr
      · exact hq
      · exact hsorted r hr
    rw [List.foldl_cons, ih hps _ hinsert, Path.mem_insert hq hsorted, List.mem_cons]
    tauto

/-- Which paths are checked, and in which order, depends on the set of paths alone. -/
theorem inOrder_congr {paths paths' : List String} (h : ∀ p ∈ paths, Path.Plain p)
    (hmem : ∀ p, p ∈ paths' ↔ p ∈ paths) : inOrder paths' = inOrder paths := by
  have hplain' : ∀ p ∈ paths', Path.Plain p := fun p hp => h p ((hmem p).1 hp)
  have hperm : (inOrder paths').Perm (inOrder paths) := by
    refine (List.perm_ext_iff_of_nodup (sorted_inOrder _).nodup (sorted_inOrder _).nodup).2 fun p => ?_
    rw [mem_inOrder h, mem_inOrder hplain', hmem]
  refine hperm.eq_of_pairwise ?_ (sorted_inOrder paths') (sorted_inOrder paths)
  exact fun p q _ _ hlt hgt => absurd hgt (OrientedCmp.not_lt_of_lt hlt)

end Check

end StructuredText

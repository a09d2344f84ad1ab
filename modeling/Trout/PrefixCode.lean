import Mathlib.InformationTheory.Coding.UniquelyDecodable

/-! Prefix codes: a stream of code words, written without separators, can be split into them in one way. -/

namespace PrefixCode
open InformationTheory

variable {α ι : Type*}

/-- No word of the code is empty, and none starts another one. -/
structure PrefixFree (code : Set (List α)) : Prop where
  nil_notMem : [] ∉ code
  unique : ∀ w ∈ code, ∀ w' ∈ code, w <+: w' → w = w'

/-- Of two streams with the same bytes the first words agree: the shorter one starts the longer one. -/
theorem PrefixFree.heads_eq {code : Set (List α)} (hcode : PrefixFree code) {w w' rest rest' : List α}
    (hw : w ∈ code) (hw' : w' ∈ code) (h : w ++ rest = w' ++ rest') : w = w' := by
  have hstarts : w <+: w' ++ rest' := h ▸ List.prefix_append w rest
  rcases List.prefix_or_prefix_of_prefix hstarts (List.prefix_append w' rest') with hle | hge
  · exact hcode.unique w hw w' hw' hle
  · exact (hcode.unique w' hw' w hw hge).symm

theorem PrefixFree.uniquelyDecodable {code : Set (List α)} (hcode : PrefixFree code) : UniquelyDecodable code := by
  intro ws
  induction ws with
  | nil =>
      intro ws' _ hws' h
      cases ws' with
      | nil => rfl
      | cons w' ws' =>
          have hnil : w' = [] := (List.append_eq_nil_iff.mp h.symm).1
          exact absurd (hnil ▸ hws' w' List.mem_cons_self) hcode.nil_notMem
  | cons w ws ih =>
      intro ws' hws hws' h
      have hw := hws w List.mem_cons_self
      cases ws' with
      | nil =>
          have hnil : w = [] := (List.append_eq_nil_iff.mp h).1
          exact absurd (hnil ▸ hw) hcode.nil_notMem
      | cons w' ws' =>
          rw [List.flatten_cons, List.flatten_cons] at h
          have hhead : w = w' := hcode.heads_eq hw (hws' w' List.mem_cons_self) h
          subst hhead
          have htail := ih ws' (fun v hv => hws v (List.mem_cons_of_mem w hv))
            (fun v hv => hws' v (List.mem_cons_of_mem w hv)) (List.append_cancel_left h)
          rw [htail]

/-- The same for the symbols that the words stand for. -/
theorem PrefixFree.decode_eq {encode : ι → List α} (hinj : Function.Injective encode)
    (hcode : PrefixFree (Set.range encode)) {xs ys : List ι}
    (h : (xs.map encode).flatten = (ys.map encode).flatten) : xs = ys := by
  have hwords : ∀ zs : List ι, ∀ w ∈ zs.map encode, w ∈ Set.range encode := by
    intro zs w hw
    obtain ⟨z, -, rfl⟩ := List.mem_map.mp hw
    exact ⟨z, rfl⟩
  have hmap : xs.map encode = ys.map encode := hcode.uniquelyDecodable _ _ (hwords xs) (hwords ys) h
  exact (List.map_inj_right fun _ _ heq => hinj heq).mp hmap

end PrefixCode

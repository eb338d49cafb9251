import SolidScript.Mesh.Stl
import SolidScript.Proofs.Number.Decimal
import SolidScript.Proofs.Text.Pieces

namespace SolidScript

namespace Stl

def Safe (c : Char) : Prop :=
  ('A' ≤ c ∧ c ≤ 'Z') ∨ ('a' ≤ c ∧ c ≤ 'z') ∨ ('0' ≤ c ∧ c ≤ '9') ∨ c = '_' ∨ c = '-'

instance (c : Char) : Decidable (Safe c) := inferInstanceAs (Decidable (_ ∨ _))

/-- The numbers of a facet as they are written: the normal, then the three corners. -/
def numbers (t : Triangle Float) : List String :=
  [t.normal, t.a, t.b, t.c].flatMap fun v => [coordinate v.x, coordinate v.y, coordinate v.z]

def opening : List Char := "facet normal".toList

end Stl

namespace Proofs
open Text Stl

/-! ## Characters -/

def Outside (c : Char) : Prop := c.isDigit = false ∧ c ∉ ['.', '-', 'n', 'a', 'i', 'f']

instance (c : Char) : Decidable (Outside c) := inferInstanceAs (Decidable (_ ∧ _))

theorem pointed_lacks {c : Char} (noDigit : c.isDigit = false) (noPoint : c ≠ '.') {places : Nat}
    (some : places ≠ 0) (n : Nat) : c ∉ Number.pointed places n := by
  obtain ⟨ds, fs, pointed, -, digits, others, -⟩ := pointed_eq_append some n
  rw [pointed, List.mem_append, List.mem_cons]
  rintro (whole | point | fraction)
  · rw [digits c whole] at noDigit
    cases noDigit
  · exact noPoint point
  · rw [others c fraction] at noDigit
    cases noDigit

theorem coordinate_lacks {c : Char} (outside : Outside c) (x : Float) :
    c ∉ (coordinate x).toList := by
  obtain ⟨noDigit, others⟩ := outside
  simp only [List.mem_cons, List.not_mem_nil, or_false, not_or] at others
  obtain ⟨noPoint, noMinus, letters⟩ := others
  rw [coordinate, String.toList_ofList, Number.fixedText]
  split
  · simp [Number.nanText, letters]
  · rename_i negative _
    cases negative <;> simp [Number.infiniteText, letters, noMinus]
  · rename_i negative m q _
    have magnitude := @pointed_lacks c noDigit noPoint 6 (by decide) (Number.toPlaces 6 m q)
    cases negative <;> simp [Number.signed, noMinus, magnitude]

theorem toList_coordinates (v : Vertex Float) :
    (coordinates v).toList = [' '].intercalate
      [(coordinate v.x).toList, (coordinate v.y).toList, (coordinate v.z).toList] := by
  simp [coordinates, List.intercalate_cons_cons]

theorem coordinates_lack {c : Char} (outside : Outside c) (noSpace : c ≠ ' ') (v : Vertex Float) :
    c ∉ (coordinates v).toList := by
  simp [coordinates, coordinate_lacks outside, noSpace]

theorem safe_sanitize (name : String) : ∀ c ∈ (sanitize name).toList, Safe c := by
  intro c member
  rw [sanitize, String.toList_ofList] at member
  obtain ⟨d, -, rfl⟩ := List.mem_map.mp member
  split
  · rename_i kept
    delta Stl.isNameChar Char.isAlphanum Char.isAlpha Char.isUpper Char.isLower Char.isDigit at kept
    simp only [Bool.or_eq_true, Bool.and_eq_true, decide_eq_true_eq, or_assoc] at kept
    exact kept
  · exact .inr (.inr (.inr (.inl rfl)))

theorem sanitize_lacks {c : Char} (unsafe' : ¬ Safe c) (name : String) :
    c ∉ (sanitize name).toList :=
  fun member => unsafe' (safe_sanitize name c member)

theorem length_sanitize (name : String) : (sanitize name).length = name.length := by
  rw [sanitize, String.length_ofList, List.length_map, String.length_toList]

/-! ## Lines -/

theorem documentLines_one_line (mesh : Mesh) (name : String) :
    ∀ line ∈ (documentLines mesh name).map String.toList, '\n' ∉ line := by
  have solid := @sanitize_lacks '\n' (by decide) name
  have written := @coordinates_lack '\n' (by decide) (by decide)
  rw [List.forall_mem_map]
  intro line member
  simp only [documentLines, List.mem_append, List.mem_cons, List.mem_flatMap, facet,
    List.not_mem_nil, or_false] at member
  rcases member with (rfl | ⟨t, -, rfl | rfl | rfl | rfl | rfl | rfl | rfl⟩) | rfl
  all_goals simp [solid, written]

theorem toList_document (mesh : Mesh) (name : String) : (document mesh name).toList =
    ['\n'].intercalate ((documentLines mesh name).map String.toList) := String.toList_intercalate

theorem lines_document (mesh : Mesh) (name : String) :
    lines (document mesh name).toList = (documentLines mesh name).map String.toList := by
  rw [toList_document]
  exact fields_intercalate (by simp [documentLines]) (documentLines_one_line mesh name)

theorem length_facet (t : Triangle Float) : (facet t).length = 7 := by
  simp only [facet, List.length_cons, List.length_nil]

theorem length_facets (mesh : Mesh) : (mesh.flatMap facet).length = 7 * mesh.length := by
  induction mesh with
  | nil => rfl
  | cons t mesh ih =>
    rw [List.flatMap_cons, List.length_append, ih, List.length_cons, length_facet]
    omega

theorem length_documentLines (mesh : Mesh) (name : String) :
    (documentLines mesh name).length = 2 + 7 * mesh.length := by
  rw [documentLines, List.length_append, List.length_cons, length_facets, List.length_singleton]
  omega

/-! ## Facets -/

theorem coordinates_inj {v w : Vertex Float} (same : coordinates v = coordinates w) :
    [coordinate v.x, coordinate v.y, coordinate v.z] =
      [coordinate w.x, coordinate w.y, coordinate w.z] := by
  have cut (v : Vertex Float) : fields ' ' (coordinates v).toList =
      [coordinate v.x, coordinate v.y, coordinate v.z].map String.toList := by
    rw [toList_coordinates]
    refine fields_intercalate (List.cons_ne_nil _ _) ?_
    simp [@coordinate_lacks ' ' (by decide)]
  have words := congrArg (fun text => fields ' ' text.toList) same
  simp only [cut] at words
  exact List.map_injective_iff.mpr (fun _ _ => String.toList_inj.mp) words

theorem numbers_of_facet {t t' : Triangle Float} (same : facet t = facet t') :
    numbers t = numbers t' := by
  simp only [facet, List.cons.injEq, String.append_right_inj, true_and, and_true] at same
  obtain ⟨normal, a, b, c⟩ := same
  simp only [numbers, List.flatMap_cons, coordinates_inj normal, coordinates_inj a,
    coordinates_inj b, coordinates_inj c]

theorem length_of_lines {mesh mesh' : Mesh} (same : mesh.flatMap facet = mesh'.flatMap facet) :
    mesh.length = mesh'.length := by
  have lengths := congrArg List.length same
  rw [length_facets, length_facets] at lengths
  omega

theorem map_facet_of_lines {mesh mesh' : Mesh} (same : mesh.flatMap facet = mesh'.flatMap facet) :
    mesh.map facet = mesh'.map facet := by
  -- Facets have seven lines each, so they are told apart in all lines of a mesh.
  have lengths := length_of_lines same
  induction mesh generalizing mesh' with
  | nil =>
    rw [List.length_nil, eq_comm, List.length_eq_zero_iff] at lengths
    rw [lengths]
  | cons t mesh ih =>
    cases mesh' with
    | nil => cases lengths
    | cons t' mesh' =>
      rw [List.flatMap_cons, List.flatMap_cons] at same
      have heads : (facet t).length = (facet t').length := by rw [length_facet, length_facet]
      obtain ⟨first, others⟩ := List.append_inj same heads
      rw [List.map_cons, List.map_cons, first, ih others (length_of_lines others)]

theorem documentLines_inj {mesh mesh' : Mesh} {name name' : String}
    (same : documentLines mesh name = documentLines mesh' name') :
    sanitize name = sanitize name' ∧ mesh.map facet = mesh'.map facet := by
  rw [documentLines, documentLines, List.cons_append, List.cons_append, List.cons.injEq,
    String.append_right_inj] at same
  obtain ⟨solid, lines⟩ := same
  rw [solid, List.append_cancel_right_eq] at lines
  exact ⟨solid, map_facet_of_lines lines⟩

/-! ## The words that open a facet -/

theorem opening_of_no_c {text : List Char} (absent : 'c' ∉ text) : occurrences opening text = 0 :=
  occurrences_of_not_mem (by decide) absent

theorem opening_after_word {word rest : List Char} (whole : ' ' ∉ word) :
    occurrences opening (word ++ ' ' :: rest) =
      (if "facet".toList <:+ word ∧ "normal".toList <+: rest then 1 else 0) +
        occurrences opening rest :=
  @occurrences_two_parts ' ' word rest "facet".toList "normal".toList (by decide) whole

theorem opening_before_name {word : List Char} (whole : ' ' ∉ word)
    (other : ¬ "facet".toList <:+ word) (name : String) :
    occurrences opening (word ++ ' ' :: (sanitize name).toList) = 0 := by
  -- A name has no space, so the words cannot begin in it, and before it stands another word.
  have inName : occurrences opening (sanitize name).toList = 0 :=
    @occurrences_of_not_mem opening ' ' _ (by decide) (sanitize_lacks (by decide) name)
  rw [opening_after_word whole, inName, if_neg fun ends => other ends.1]

theorem opening_in_facet (t : Triangle Float) :
    ((facet t).map fun line => occurrences opening line.toList).sum = 1 := by
  have numbers (v : Vertex Float) : 'c' ∉ (coordinates v).toList :=
    coordinates_lack (by decide) (by decide) v
  have first : occurrences opening ("  facet normal " ++ coordinates t.normal).toList = 1 := by
    have words : ("  facet normal " ++ coordinates t.normal).toList =
        [] ++ ' ' :: ([] ++ ' ' :: ("facet".toList ++
          ' ' :: ("normal".toList ++ ' ' :: (coordinates t.normal).toList))) := by
      rw [String.toList_append]
      rfl
    have rest : occurrences opening ("normal".toList ++ ' ' :: (coordinates t.normal).toList) = 0 :=
      opening_of_no_c (by simp [numbers])
    rw [words, opening_after_word (by simp), opening_after_word (by simp),
      opening_after_word (by decide), rest]
    simp
  have corner (v : Vertex Float) :
      occurrences opening ("      vertex " ++ coordinates v).toList = 0 :=
    opening_of_no_c (by simp [numbers])
  have loop : occurrences opening "    outer loop".toList = 0 := by decide
  have endLoop : occurrences opening "    endloop".toList = 0 := by decide
  have endFacet : occurrences opening "  endfacet".toList = 0 := by decide
  simp only [facet, List.map_cons, List.map_nil, first, corner, loop, endLoop, endFacet,
    List.sum_cons, List.sum_nil]
  rfl

theorem opening_in_document (mesh : Mesh) (name : String) :
    occurrences opening (document mesh name).toList = mesh.length := by
  have solid : occurrences opening ("solid " ++ sanitize name).toList = 0 := by
    rw [String.toList_append]
    exact @opening_before_name "solid".toList (by decide) (by decide) name
  have endSolid : occurrences opening ("endsolid " ++ sanitize name).toList = 0 := by
    rw [String.toList_append]
    exact @opening_before_name "endsolid".toList (by decide) (by decide) name
  have facets : ((mesh.flatMap facet).map fun line => occurrences opening line.toList).sum =
      mesh.length := by
    induction mesh with
    | nil => rfl
    | cons t mesh ih =>
      rw [List.flatMap_cons, List.map_append, List.sum_append, opening_in_facet, ih,
        List.length_cons, Nat.add_comm]
  rw [toList_document, occurrences_intercalate (by decide) (by decide), List.map_map, documentLines,
    List.map_append, List.sum_append, List.map_cons, List.sum_cons]
  simp only [Function.comp_def, List.map_cons, List.map_nil, List.sum_cons, List.sum_nil, solid,
    endSolid, facets, Nat.zero_add, Nat.add_zero]

/-! ## Documents -/

/-- A document has two lines and seven for each triangle, and opens as many facets as there are
triangles. It begins and ends with the name of the solid, each character of which is a safe one. And
it tells this name, the number of triangles, and every number of each triangle as it is written. -/
theorem document_tells_mesh (mesh : Mesh) (name : String) :
    (lines (document mesh name).toList).length = 2 + 7 * mesh.length ∧
    occurrences "facet normal".toList (document mesh name).toList = mesh.length ∧
    (∃ facets, document mesh name =
      "solid " ++ sanitize name ++ "\n" ++ facets ++ "endsolid " ++ sanitize name) ∧
    (∀ c ∈ (sanitize name).toList, Safe c) ∧ (sanitize name).length = name.length ∧
    ∀ (mesh' : Mesh) (name' : String), document mesh name = document mesh' name' →
      sanitize name = sanitize name' ∧ mesh.length = mesh'.length ∧
      ∀ (i : Nat) (h : i < mesh.length) (h' : i < mesh'.length),
        numbers mesh[i] = numbers mesh'[i] := by
  refine ⟨?_, opening_in_document mesh name, ?_, safe_sanitize name, length_sanitize name, ?_⟩
  · rw [lines_document, List.length_map, length_documentLines]
  · refine ⟨String.ofList (((mesh.flatMap facet).map String.toList).flatMap (· ++ ['\n'])), ?_⟩
    rw [← String.toList_inj, toList_document, documentLines, List.map_append, List.map_singleton,
      intercalate_concat]
    simp
  · intro mesh' name' same
    have documents : documentLines mesh name = documentLines mesh' name' := by
      have cut := congrArg (fun text : String => lines text.toList) same
      simp only [lines_document] at cut
      exact List.map_injective_iff.mpr (fun _ _ => String.toList_inj.mp) cut
    obtain ⟨solid, facets⟩ := documentLines_inj documents
    refine ⟨solid, by simpa using congrArg List.length facets, fun i h h' => ?_⟩
    apply numbers_of_facet
    have here := congrArg (fun facets => facets[i]?) facets
    simpa [h, h'] using here

def cornerAt (x : Float) : Triangle Float := ⟨⟨x, 0, 0⟩, ⟨1, 0, 0⟩, ⟨0, 1, 0⟩⟩

theorem cornerAt_tells_mesh :
    document [cornerAt 0] "my part" = document [cornerAt (-1e-9)] "my_part" ∧
      sanitize "my part" = sanitize "my_part" ∧
      numbers (cornerAt 0) = numbers (cornerAt (-1e-9)) := by
  have same : document [cornerAt 0] "my part" = document [cornerAt (-1e-9)] "my_part" := by
    decide +kernel
  obtain ⟨-, -, -, -, -, tells⟩ := document_tells_mesh [cornerAt 0] "my part"
  obtain ⟨solid, -, written⟩ := tells [cornerAt (-1e-9)] "my_part" same
  exact ⟨same, solid, written 0 (by decide) (by decide)⟩

end Proofs

end SolidScript

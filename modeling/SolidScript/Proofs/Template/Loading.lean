import SolidScript.Proofs.Template.Resolved

namespace SolidScript.Proofs
open Lexical Text Grammar

theorem assignable_of_resolve {t : Template} {overrides params : Bindings Float} {clamp : Bool}
    (resolved : t.resolve overrides clamp = .ok params)
    (names : ∀ key ∈ t.metadata.paramKeys, Assignable key) :
    ∀ entry ∈ params, Assignable entry.1 := by
  intro entry member
  apply names
  apply mem_paramKeys
  rw [← resolve_keys resolved]
  exact List.mem_map_of_mem member

theorem metadata_ofSource_succeeds {source fallback : String} {m : Metadata}
    (described : Metadata.ofSource source fallback = .ok m) (fallback' : String) :
    ∃ m', Metadata.ofSource source fallback' = .ok m' :=
  @read_succeeds (.named fallback) m source.toList described (.named fallback')

/-- If its keys are names, the resolved source of a template is a template again, whatever the
values of the parameters are. -/
theorem resolvedSource_loads {source fallback : String} {t : Template}
    {overrides params : Bindings Float} (loaded : Template.ofSource source fallback = .ok t)
    (resolved : t.resolve overrides true = .ok params)
    (names : ∀ key ∈ t.metadata.paramKeys, Assignable key) :
    ∃ text, t.resolvedSource overrides = .ok text ∧
      ∀ fallback', ∃ t', Template.ofSource text fallback' = .ok t' := by
  simp only [Template.ofSource, bind_eq_ok, mapError_eq_ok, pure_eq_ok] at loaded
  obtain ⟨metadata, described, program, parsed, rfl⟩ := loaded
  have assignable := assignable_of_resolve resolved names
  have reads : ∀ entry ∈ params, ∃ e, True ∧
      ∀ before, ReadsAt before (assignmentLine entry) [.assign entry.1 e] := by
    intro entry member
    obtain ⟨stream, e, splits, derived⟩ := scriptText_derived entry.2
    exact ⟨e, trivial, assignment_readsAt (assignable entry member) (gapless_scriptText entry.2)
      splits derived⟩
  obtain ⟨statements, move, _, moved⟩ :=
    @parseProgram_headLines source program params (fun _ _ => True) parsed reads
  refine ⟨resolvedSource source params, ?_, fun fallback' => ?_⟩
  · rw [Template.resolvedSource, resolved]
    rfl
  · simp only [Template.ofSource, bind_eq_ok, mapError_eq_ok, pure_eq_ok,
      metadata_resolvedSource assignable]
    obtain ⟨metadata', described'⟩ := metadata_ofSource_succeeds described
      (if fallback'.isEmpty then Metadata.defaultId else fallback')
    exact ⟨_, metadata', described', _, moved, rfl⟩

def wideSource : String := "// @param w | Width | 0 | 9 | 1 | wide\n"

def wideTemplate : Template where
  source := wideSource
  metadata := { Metadata.named "brick" with params := [⟨"w", "Width", 0, 9, 1, Number.nan⟩] }
  program := []

theorem parseProgram_of_noTokens {source : String} {p : Position}
    (scanned : scan source = .ok ⟨[], p⟩) : parseProgram source = .ok [] :=
  parseProgram_eq_ok_iff.mpr ⟨_, (@scanFrom_eq_ok_iff [] _ _).mp scanned, .nil⟩

theorem wideSource_loaded : Template.ofSource wideSource "brick" = .ok wideTemplate := by
  simp only [Template.ofSource, bind_eq_ok, mapError_eq_ok, pure_eq_ok]
  exact ⟨_, rfl, _, parseProgram_of_noTokens (p := ⟨2, 1⟩) (by decide +kernel), rfl⟩

theorem wideSource_loads :
    wideTemplate.resolvedSource [] = .ok ("w = nan;\n\n" ++ wideSource) ∧
      ∃ text, wideTemplate.resolvedSource [] = .ok text ∧
        ∀ fallback, ∃ t, Template.ofSource text fallback = .ok t := by
  have names : ∀ key ∈ wideTemplate.metadata.paramKeys, Assignable key := by
    intro key member
    rw [List.mem_singleton.mp member]
    exact ⟨@Spells.identifier 'w' [] (by decide) (by simp), by decide⟩
  have resolved : wideTemplate.resolve [] true = .ok [("w", Number.nan)] := rfl
  exact ⟨by decide +kernel, resolvedSource_loads wideSource_loaded resolved names⟩

theorem statement_second {ts : List Token} {s : Stmt} (phrase : Statement ts s) :
    ∃ name p mark q us, ts = .identifier name p :: .symbol mark q :: us := by
  cases phrase with
  | assign | loop => exact ⟨_, _, _, _, _, rfl⟩
  | call _ _ invocation | callBlock _ invocation | callBlockEnded _ _ invocation =>
    cases invocation with
    | call => exact ⟨_, _, _, _, _, rfl⟩

theorem not_statements_two_names {name other : String} {p q : Position} {ts : List Token}
    {program : Program} :
    ¬ Statements (.identifier name p :: .identifier other q :: ts) program := by
  intro derived
  generalize whole : Token.identifier name p :: .identifier other q :: ts = tokens at derived
  cases derived with
  | nil => cases whole
  | cons first others =>
    obtain ⟨_, _, _, _, _, rfl⟩ := statement_second first
    cases whole

def keySource : String := "// @param my key | Key | 0 | 9 | 1 | 4\n"

def keyTemplate : Template where
  source := keySource
  metadata := { Metadata.named "brick" with params := [⟨"my key", "Key", 0, 9, 1, 4⟩] }
  program := []

def keyText : String := "my key = 4;\n\n" ++ keySource

theorem keySource_loaded : Template.ofSource keySource "brick" = .ok keyTemplate := by
  simp only [Template.ofSource, bind_eq_ok, mapError_eq_ok, pure_eq_ok]
  exact ⟨_, rfl, _, parseProgram_of_noTokens (p := ⟨2, 1⟩) (by decide +kernel), rfl⟩

theorem keySource_not_loadable : Template.ofSource keySource "brick" = .ok keyTemplate ∧
    ∃ text, keyTemplate.resolvedSource [] = .ok text ∧
      ∀ fallback t, Template.ofSource text fallback ≠ .ok t := by
  refine ⟨keySource_loaded, keyText, by decide +kernel, ?_⟩
  intro fallback t loaded
  simp only [Template.ofSource, bind_eq_ok, mapError_eq_ok, pure_eq_ok] at loaded
  obtain ⟨_, _, program, parsed, _⟩ := loaded
  obtain ⟨stream, splits, derived⟩ := parseProgram_eq_ok_iff.mp parsed
  have scanned : scan keyText = .ok stream := splits_scanFrom splits
  have tokens : scan keyText = .ok ⟨[.identifier "my" ⟨1, 1⟩, .identifier "key" ⟨1, 4⟩,
      .symbol .equals ⟨1, 8⟩, .number "4" ⟨1, 10⟩, .symbol .semicolon ⟨1, 11⟩], ⟨4, 1⟩⟩ := by
    decide +kernel
  rw [tokens] at scanned
  cases scanned
  exact not_statements_two_names derived

end SolidScript.Proofs

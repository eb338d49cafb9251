import SolidScript.Proofs.Evaluation.Drawing
import SolidScript.Proofs.Evaluation.Relocation
import SolidScript.Proofs.Template.Assignment
import SolidScript.Proofs.Template.Parameters

namespace SolidScript

def RenderError.relocate (move : Position → Position) : RenderError → RenderError
  | .unknownParameter e => .unknownParameter e
  | .eval e => .eval (e.relocate move)

namespace Proofs
open Lexical Text Grammar

theorem frame_keys (params : Bindings Float) : (Template.frame params).keys = params.keys := by
  simp [Template.frame, Bindings.keys]

def Assigns : Bindings Float → Program → Prop :=
  List.Forall₂ fun entry statement => ∃ e, Denotes e entry.2 ∧ statement = .assign entry.1 e

theorem assign_run (settings : Settings) {name : String} {e : Expr} {x : Float}
    (denotes : Denotes e x) (machine : Machine) :
    (Stmt.assign name e).run settings machine =
      (.ok [], { machine with scope := machine.scope.set name (.number x) }) := by
  rw [Stmt.run]
  simp only [bind, Exec.read, denotes machine.scope]
  rfl

theorem assigns_run (settings : Settings) {params : Bindings Float} {statements : Program}
    (assigns : Assigns params statements) (frame : Frame) (rest : Program) :
    Program.run (statements ++ rest) settings frame =
      rest.run settings ((Template.frame params).foldl
        (fun b entry => Bindings.set b entry.1 entry.2) frame) := by
  induction assigns generalizing frame with
  | nil => rfl
  | @cons entry statement params statements first others ih =>
    obtain ⟨e, denotes, rfl⟩ := first
    rw [List.cons_append, Program.run, runAll_cons_of_nothing (assign_run settings denotes _)]
    exact ih (frame.set entry.1 (.number entry.2))

/-- Leading assignments to all parameters make a program forget what it was started with. -/
theorem assigns_run_frame (settings : Settings) {params params' : Bindings Float}
    {statements : Program} (assigns : Assigns params statements) (keys : params'.keys = params.keys)
    (distinct : params.keys.Nodup) (rest : Program) :
    Program.run (statements ++ rest) settings (Template.frame params') =
      rest.run settings (Template.frame params) := by
  have same : (Template.frame params').keys = (Template.frame params).keys := by
    rw [frame_keys, frame_keys, keys]
  rw [assigns_run settings assigns, Bindings.foldl_set_eq same (by rwa [frame_keys])]

def headLines (params : Bindings Float) : List (List Char) :=
  if params = [] then [[]] else params.map assignmentLine

theorem intercalate_newline (line : List Char) (lines : List (List Char)) (last : List Char) :
    ['\n'].intercalate (line :: lines) ++ '\n' :: last = onLines (line :: lines) last := by
  induction lines generalizing line with
  | nil => simp [onLines]
  | cons next lines ih =>
    rw [List.intercalate_cons_cons, List.append_assoc, ih]
    simp [onLines]

theorem toList_resolvedSource (source : String) (params : Bindings Float) :
    (resolvedSource source params).toList =
      onLines (headLines params) (onLines [[], trim source.toList] []) := by
  simp only [resolvedSource, String.toList_append, String.toList_intercalate, List.map_map,
    Function.comp_def, trimText, String.toList_ofList]
  cases params with
  | nil => simp [headLines, onLines]
  | cons entry params =>
    have joined := intercalate_newline (assignmentLine entry) (params.map assignmentLine)
      ('\n' :: (trim source.toList ++ ['\n']))
    simp [headLines, onLines] at joined ⊢
    exact joined

theorem headLines_read {params : Bindings Float} {R : Expr → Float → Prop}
    (reads : ∀ entry ∈ params, ∃ e, R e entry.2 ∧
      ∀ before, ReadsAt before (assignmentLine entry) [.assign entry.1 e]) :
    ∃ statements, List.Forall₂ (fun entry statement => ∃ e, R e entry.2 ∧
        statement = .assign entry.1 e) params statements ∧
      ∃ programs : List Program, programs.flatten = statements ∧
        List.Forall₂ (fun line program => ∀ before, ReadsAt before line program)
          (headLines params) programs := by
  have each : ∃ statements, List.Forall₂ (fun entry statement => ∃ e, R e entry.2 ∧
        statement = .assign entry.1 e) params statements ∧
      List.Forall₂ (fun line program => ∀ before, ReadsAt before line program)
        (params.map assignmentLine) (statements.map fun s => [s]) := by
    induction params with
    | nil => exact ⟨[], .nil, .nil⟩
    | cons entry params ih =>
      rw [List.forall_mem_cons] at reads
      obtain ⟨⟨e, related, read⟩, others⟩ := reads
      obtain ⟨statements, assigns, others⟩ := ih others
      exact ⟨_, .cons ⟨e, related, rfl⟩ assigns, .cons read others⟩
  obtain ⟨statements, assigns, read⟩ := each
  refine ⟨statements, assigns, ?_⟩
  cases assigns with
  | nil => exact ⟨[[]], rfl, .cons readsAt_nil .nil⟩
  | cons first others => exact ⟨_, by rw [← List.flatMap_def, List.flatMap_singleton'], read⟩

theorem parseProgram_headLines {source : String} {program : Program} {params : Bindings Float}
    {R : Expr → Float → Prop} (parsed : parseProgram source = .ok program)
    (reads : ∀ entry ∈ params, ∃ e, R e entry.2 ∧
      ∀ before, ReadsAt before (assignmentLine entry) [.assign entry.1 e]) :
    ∃ statements move, List.Forall₂ (fun entry statement => ∃ e, R e entry.2 ∧
        statement = .assign entry.1 e) params statements ∧
      parseProgram (resolvedSource source params) =
        .ok (statements ++ Stmt.relocateAll move program) := by
  obtain ⟨lead, trail, whole, leadBlank, trailBlank⟩ := trim_split source.toList
  rw [parseProgram_eq_ok_iff, whole] at parsed
  have body := readsAt_trim leadBlank trailBlank parsed
  obtain ⟨statements, assigns, programs, rfl, read⟩ := headLines_read reads
  -- The source has no fixed place after the assignments, so it is read wherever it may stand.
  have ended : ∀ before, ∃ moved, (∃ move, moved = Stmt.relocateAll move program) ∧
      ReadsAt before (onLines [[], trim source.toList] []) moved := by
    intro before
    obtain ⟨move, moved⟩ := readsAt_relocate body (before ++ [] ++ ['\n'])
    refine ⟨_, ⟨move, rfl⟩, ?_⟩
    have last := readsAt_newline moved (readsAt_nil _)
    rw [List.append_nil (Stmt.relocateAll move program)] at last
    exact readsAt_newline (readsAt_nil before) last
  obtain ⟨_, ⟨move, rfl⟩, all⟩ := readsAt_onLines read ended []
  refine ⟨_, move, assigns, ?_⟩
  rw [parseProgram_eq_ok_iff, toList_resolvedSource]
  exact all

theorem parseProgram_resolvedSource {source : String} {program : Program} {params : Bindings Float}
    (parsed : parseProgram source = .ok program) (names : ∀ entry ∈ params, Assignable entry.1)
    (numbers : ∀ entry ∈ params, entry.2.isFinite = true ∧ ReadsBack entry.2) :
    ∃ statements move, Assigns params statements ∧
      parseProgram (resolvedSource source params) =
        .ok (statements ++ Stmt.relocateAll move program) :=
  parseProgram_headLines parsed fun entry member =>
    assignmentLine_reads (names entry member) (numbers entry member).1 (numbers entry member).2

theorem metadata_resolvedSource {source : String} {params : Bindings Float}
    (names : ∀ entry ∈ params, Assignable entry.1) (fallback : String) :
    Metadata.ofSource (resolvedSource source params) fallback =
      Metadata.ofSource source fallback := by
  have silent : ∀ line ∈ headLines params, ∀ m : Metadata, m.read line = .ok m := by
    intro line member m
    unfold headLines at member
    split at member
    · rw [List.mem_singleton.mp member]
      exact read_nil m
    · obtain ⟨entry, present, rfl⟩ := List.mem_map.mp member
      exact assignmentLine_silent (names entry present).1 entry.2 m
  change (Metadata.named fallback).read _ = (Metadata.named fallback).read _
  have blankLine := read_newline (.named fallback) [] (trim source.toList ++ '\n' :: [])
  rw [read_nil, ok_bind] at blankLine
  rw [toList_resolvedSource, read_onLines silent]
  refine blankLine.trans ?_
  rw [read_append_blank _ (by decide), read_trim]

theorem render_of_resolve {t : Template} {overrides params : Bindings Float} {clamp : Bool}
    (resolved : t.resolve overrides clamp = .ok params) (settings : Settings) :
    t.render overrides settings clamp =
      (t.program.run settings (Template.frame params)).1.mapError .eval := by
  simp only [Template.render, Template.rendering, resolved]
  rfl

/-- The resolved source of a template means what the template meant: whatever it is rendered with,
it gives the mesh of the template, or its error up to the place of a call. -/
theorem resolvedSource_renders_same {source fallback : String} {t : Template}
    {overrides params : Bindings Float} (loaded : Template.ofSource source fallback = .ok t)
    (resolved : t.resolve overrides true = .ok params)
    (names : ∀ key ∈ t.metadata.paramKeys, Assignable key)
    (numbers : ∀ entry ∈ params, entry.2.isFinite = true ∧ ReadsBack entry.2) :
    ∃ text t', t.resolvedSource overrides = .ok text ∧ Template.ofSource text fallback = .ok t' ∧
      t'.metadata = t.metadata ∧
      ∃ move, ∀ overrides' clamp params', t'.resolve overrides' clamp = .ok params' →
        ∀ settings, t'.render overrides' settings clamp =
          (t.render overrides settings true).mapError (.relocate move) := by
  simp only [Template.ofSource, bind_eq_ok, mapError_eq_ok, pure_eq_ok] at loaded
  obtain ⟨metadata, described, program, parsed, rfl⟩ := loaded
  have keys := resolve_keys resolved
  have assignable : ∀ entry ∈ params, Assignable entry.1 := by
    intro entry member
    refine names entry.1 (mem_paramKeys ?_)
    rw [← keys]
    exact List.mem_map_of_mem member
  obtain ⟨statements, move, assigns, moved⟩ :=
    parseProgram_resolvedSource parsed assignable numbers
  refine ⟨resolvedSource source params, ⟨resolvedSource source params, metadata,
    statements ++ Stmt.relocateAll move program⟩, ?_, ?_, rfl, move, ?_⟩
  · rw [Template.resolvedSource, resolved]
    rfl
  · simp only [Template.ofSource, bind_eq_ok, mapError_eq_ok, pure_eq_ok,
      metadata_resolvedSource assignable]
    exact ⟨metadata, described, _, moved, rfl⟩
  · intro overrides' clamp params' resolved' settings
    have keys' : params'.keys = params.keys := (resolve_keys resolved').trans keys.symm
    have distinct : params.keys.Nodup := keys ▸ nodup_keys_defaults _
    rw [render_of_resolve resolved', render_of_resolve resolved,
      assigns_run_frame settings assigns keys' distinct, Program.run, statements_relocate]
    simp only [Exec.relocate, Program.run]
    cases (Stmt.runAll settings program ⟨.root (Template.frame params), []⟩).1 <;> rfl

def boxSource : String := "// @param h | Height | -9 | 9 | 1 | 4\ncube([h, h, h]);\n"

def boxTemplate : Template where
  source := boxSource
  metadata := { Metadata.named "box" with params := [⟨"h", "Height", -9, 9, 1, 4⟩] }
  program := [.call ⟨"cube", [.array [.var "h", .var "h", .var "h"]], [], ⟨2, 1⟩⟩ none]

theorem boxSource_parsed : parseProgram boxSource = .ok boxTemplate.program := by
  have height (p : Position) : Sum [.identifier "h" p] (.var "h") :=
    .product (.unary (.primary (.var p (by decide) (by decide))))
  have sides := Items.more ⟨2, 8⟩ (height ⟨2, 7⟩)
    (.more ⟨2, 11⟩ (height ⟨2, 10⟩) (.one (height ⟨2, 13⟩)))
  have size := Sum.product (.unary (.primary (.array ⟨2, 6⟩ ⟨2, 14⟩ sides)))
  have kept (e : Expr) : Collects [.positional e] [e] [] := ⟨rfl, rfl, fun _ => rfl⟩
  have call := Invocation.call "cube" ⟨2, 1⟩ ⟨2, 5⟩ ⟨2, 15⟩ (.some (.one (.positional size)))
    (kept _)
  have derived := Statements.cons (.call ⟨2, 16⟩ (by decide) call) .nil
  rw [parseProgram_eq_ok_iff]
  refine ⟨⟨_, ⟨3, 1⟩⟩, (@scanFrom_eq_ok_iff [] _ _).mp ?_, derived⟩
  decide +kernel

theorem boxSource_loaded : Template.ofSource boxSource "box" = .ok boxTemplate := by
  simp only [Template.ofSource, bind_eq_ok, mapError_eq_ok, pure_eq_ok]
  exact ⟨_, rfl, _, boxSource_parsed, rfl⟩

theorem boxSource_renders_same :
    ∃ text t' move, boxTemplate.resolvedSource [("h", -2.5)] = .ok text ∧
      Template.ofSource text "box" = .ok t' ∧ t'.metadata = boxTemplate.metadata ∧
      ∀ settings, t'.render [] settings true =
        (boxTemplate.render [("h", -2.5)] settings true).mapError (.relocate move) := by
  have resolved : boxTemplate.resolve [("h", -2.5)] true = .ok [("h", -2.5)] := rfl
  have names : ∀ key ∈ boxTemplate.metadata.paramKeys, Assignable key := by
    intro key member
    rw [List.mem_singleton.mp member]
    exact ⟨@Spells.identifier 'h' [] (by decide) (by simp), by decide⟩
  have readable : ReadsBack (-2.5) :=
    ⟨⟨[.symbol .minus ⟨1, 1⟩, .number "2.5" ⟨1, 2⟩], ⟨1, 5⟩⟩, "2.5", by decide +kernel,
      .inr ⟨rfl, by decide +kernel⟩⟩
  have numbers : ∀ entry ∈ [("h", (-2.5 : Float))],
      entry.2.isFinite = true ∧ ReadsBack entry.2 := by
    intro entry member
    rw [List.mem_singleton.mp member]
    exact ⟨by decide +kernel, readable⟩
  obtain ⟨text, t', written, loaded, same, move, renders⟩ :=
    resolvedSource_renders_same boxSource_loaded resolved names numbers
  exact ⟨text, t', move, written, loaded, same, renders [] true _ rfl⟩

end Proofs

end SolidScript

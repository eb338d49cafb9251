import SolidScript.Proofs.Parsing.Places
import SolidScript.Proofs.Scanning.Layout

namespace SolidScript.Proofs
open Lexical Text Grammar

def ReadsAt (before text : List Char) (program : Program) : Prop :=
  ∃ stream, Splits before text stream ∧ Statements stream.tokens program

theorem parseProgram_eq_ok_iff {source : String} {program : Program} :
    parseProgram source = .ok program ↔ ReadsAt [] source.toList program := by
  have scanned (stream : TokenStream) :
      scan source = .ok stream ↔ Splits [] source.toList stream := @scanFrom_eq_ok_iff [] _ _
  simp only [parseProgram, bind_eq_ok, mapError_eq_ok, parse_eq_ok_iff, scanned]
  rfl

theorem readsAt_nil (before : List Char) : ReadsAt before [] [] :=
  ⟨_, .finish (.nil []), .nil⟩

theorem readsAt_newline {before text later : List Char} {program program' : Program}
    (first : ReadsAt before text program)
    (second : ReadsAt (before ++ text ++ ['\n']) later program') :
    ReadsAt before (text ++ '\n' :: later) (program ++ program') := by
  obtain ⟨stream, splits, derived⟩ := first
  obtain ⟨stream', splits', derived'⟩ := second
  refine ⟨stream'.prepend stream.tokens, ?_, derived.append derived'⟩
  rw [← scanFrom_eq_ok_iff, scanFrom_newline splits, splits_scanFrom splits']
  rfl

theorem readsAt_relocate {before text : List Char} {program : Program}
    (read : ReadsAt before text program) (before' : List Char) :
    ∃ move, ReadsAt before' text (Stmt.relocateAll move program) := by
  obtain ⟨stream, splits, derived⟩ := read
  obtain ⟨move, moved⟩ := splits_relocate splits before'
  exact ⟨move, _, moved, statements_moved move derived⟩

theorem readsAt_trim {before text : List Char} {program : Program} {lead trail : List Char}
    (leadBlank : ∀ c ∈ lead, isBlank c = true) (trailBlank : ∀ c ∈ trail, isBlank c = true)
    (read : ReadsAt before (lead ++ (text ++ trail)) program) :
    ReadsAt (before ++ lead) text program := by
  obtain ⟨stream, splits, derived⟩ := read
  have scanned := splits_scanFrom splits
  rw [scanFrom_skip (gap_of_blanks leadBlank _), ← place_append, scanFrom_eq_ok_iff] at scanned
  obtain ⟨finish, shorter⟩ := splits_dropBlanks trailBlank scanned
  exact ⟨_, shorter, derived⟩

def onLines (lines : List (List Char)) (last : List Char) : List Char :=
  lines.foldr (fun line rest => line ++ '\n' :: rest) last

theorem readsAt_onLines {lines : List (List Char)} {programs : List Program}
    (read : List.Forall₂ (fun line program => ∀ before, ReadsAt before line program) lines programs)
    {last : List Char} {P : Program → Prop}
    (ended : ∀ before, ∃ program, P program ∧ ReadsAt before last program) (before : List Char) :
    ∃ program, P program ∧ ReadsAt before (onLines lines last) (programs.flatten ++ program) := by
  induction read generalizing before with
  | nil => exact ended before
  | @cons line program lines programs first others ih =>
    obtain ⟨rest, holds, read⟩ := ih (before ++ line ++ ['\n'])
    refine ⟨rest, holds, ?_⟩
    rw [List.flatten_cons, List.append_assoc]
    exact readsAt_newline (first before) read

end SolidScript.Proofs

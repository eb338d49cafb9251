import SolidScript.Command.Outcome

namespace SolidScript

def Text.EndsLine (cs : List Char) : Prop := cs = [] ∨ ∃ front, cs = front ++ ['\n']

def Text.HasLine (start text : String) : Prop :=
  ∃ before rest, text.toList = before ++ (start.toList ++ rest) ∧ EndsLine before

/-- A command ended with an error of its own or with a usage error. -/
def Outcome.Told (outcome : Outcome) : Prop :=
  outcome.exit? = some 1 ∧ Text.HasLine "Error: " outcome.stderr ∨
  outcome.exit? = some 2 ∧
    (Text.HasLine "Error: " outcome.stderr ∨ Text.HasLine "Usage: " outcome.stderr)

namespace Proofs
open Text

theorem afterSequence?_eq_none {c : Char} (visible : c ≠ escape) (cs : List Char) :
    afterSequence? (c :: cs) = none := by
  cases cs with
  | nil => rfl
  | cons d cs =>
    unfold afterSequence?
    split
    · rename_i same
      cases same
      rw [if_neg visible]
    · rfl

theorem dropSequences_append {cs : List Char} (visible : escape ∉ cs) (rest : List Char) :
    dropSequences (cs ++ rest) = cs ++ dropSequences rest := by
  induction cs with
  | nil => rfl
  | cons c cs ih =>
    simp only [List.mem_cons, not_or] at visible
    have front := afterSequence?_eq_none (Ne.symm visible.1) (cs ++ rest)
    rw [List.cons_append, dropSequences]
    split
    · rename_i found
      rw [front] at found
      cases found
    · rw [ih visible.2, List.cons_append]

theorem foldPairedEndings_append (xs : List Char) {ys : List Char} (whole : ys.head? ≠ some '\n') :
    foldPairedEndings (xs ++ ys) = foldPairedEndings xs ++ foldPairedEndings ys := by
  induction xs using foldPairedEndings.induct with
  | case1 xs ih => simp [foldPairedEndings, ih]
  | case2 c xs other ih =>
    rw [List.cons_append, foldPairedEndings, foldPairedEndings, ih, List.cons_append]
    · exact other
    · intro rest first joined
      cases xs with
      | nil =>
        rw [List.nil_append] at joined
        exact whole (by rw [joined]; rfl)
      | cons d xs =>
        cases joined
        exact other xs first rfl
  | case3 => rfl

theorem foldPairedEndings_of_unpaired {xs : List Char} (unpaired : '\r' ∉ xs) (ys : List Char) :
    foldPairedEndings (xs ++ ys) = xs ++ foldPairedEndings ys := by
  induction xs with
  | nil => rfl
  | cons c xs ih =>
    simp only [List.mem_cons, not_or] at unpaired
    rw [List.cons_append, foldPairedEndings, ih unpaired.2, List.cons_append]
    exact fun _ same _ => unpaired.1 same.symm

theorem endsLine_append {xs ys : List Char} (first : EndsLine xs) (second : EndsLine ys) :
    EndsLine (xs ++ ys) := by
  rcases second with rfl | ⟨front, rfl⟩
  · rwa [List.append_nil]
  · exact .inr ⟨xs ++ front, (List.append_assoc ..).symm⟩

theorem foldPairedEndings_newline (xs : List Char) :
    ∃ front, foldPairedEndings (xs ++ ['\n']) = front ++ ['\n'] := by
  induction xs using foldPairedEndings.induct with
  | case1 xs ih =>
    obtain ⟨front, folded⟩ := ih
    exact ⟨'\n' :: front, by simp [foldPairedEndings, folded]⟩
  | case2 c xs other ih =>
    obtain ⟨front, folded⟩ := ih
    by_cases pair : c = '\r' ∧ xs = []
    · obtain ⟨rfl, rfl⟩ := pair
      exact ⟨[], rfl⟩
    · refine ⟨c :: front, ?_⟩
      rw [List.cons_append, foldPairedEndings, folded, List.cons_append]
      intro rest first joined
      cases xs with
      | nil => exact pair ⟨first, rfl⟩
      | cons d xs =>
        cases joined
        exact other _ first rfl
  | case3 => exact ⟨[], rfl⟩

theorem endsLine_fold {cs : List Char} (ends : EndsLine cs) : EndsLine (foldPairedEndings cs) := by
  rcases ends with rfl | ⟨front, rfl⟩
  · exact .inl rfl
  · exact .inr (foldPairedEndings_newline front)

theorem endsLine_of_last (s : String) {t : String} (last : t.toList.getLast? = some '\n') :
    EndsLine (s ++ t).toList := by
  obtain ⟨front, split⟩ := List.getLast?_eq_some_iff.mp last
  exact .inr ⟨s.toList ++ front, by rw [String.toList_append, split, List.append_assoc]⟩

theorem journal_endsLine (journal : Journal) : EndsLine journal.text.toList := by
  unfold Journal.text
  generalize journal.notes.reverse.filter _ = notes
  induction notes with
  | nil => exact .inl (by simp)
  | cons note notes ih =>
    dsimp only at ih ⊢
    rw [List.map_cons, String.join_cons, String.toList_append]
    exact endsLine_append (endsLine_of_last _ rfl) ih

theorem hasLine_stderr {stop : Stop} (journal : Journal) {hint start rest : String}
    (message : stop.stderr = hint ++ start ++ rest) (whole : EndsLine hint.toList)
    (plain : escape ∉ hint.toList) (word : start = "Error: " ∨ start = "Usage: ") :
    HasLine start (Outcome.stderr ⟨.error stop, journal⟩) := by
  have visible : escape ∉ start.toList := by rcases word with rfl | rfl <;> decide
  have unpaired : '\r' ∉ start.toList := by rcases word with rfl | rfl <;> decide
  have kept (tail : List Char) : (start.toList ++ tail).head? ≠ some '\n' := by
    rcases word with rfl | rfl <;> simp
  refine ⟨foldPairedEndings (journal.text.toList ++ hint.toList),
    foldPairedEndings (dropSequences rest.toList), ?_,
    endsLine_fold (endsLine_append (journal_endsLine journal) whole)⟩
  have shown : dropSequences stop.stderr.toList =
      hint.toList ++ (start.toList ++ dropSequences rest.toList) := by
    rw [message, String.toList_append, String.toList_append, List.append_assoc,
      dropSequences_append plain, dropSequences_append visible]
  change (Outcome.printed (journal.text ++ Text.plain stop.stderr)).toList = _
  rw [Outcome.printed, String.toList_ofList, String.toList_append, Text.plain,
    String.toList_ofList, shown, ← List.append_assoc, foldPairedEndings_append _ (kept _),
    foldPairedEndings_of_unpaired unpaired]

theorem usageHint_visible (command : Option Command) :
    escape ∉ (Stop.usageHint command).toList := by
  cases command with
  | none => decide +kernel
  | some command => cases command <;> decide +kernel

theorem told_of_stop {stop : Stop} (journal : Journal) (stopped : stop.exit? ≠ some 0)
    (known : ∀ cause, stop ≠ .breakdown cause) (ended : stop ≠ .endless) :
    Outcome.Told ⟨.error stop, journal⟩ := by
  cases stop with
  | page text => exact absurd rfl stopped
  | breakdown cause => exact absurd rfl (known cause)
  | endless => exact absurd rfl ended
  | failure message =>
    have line : (Stop.failure message).stderr = "" ++ "Error: " ++ (message ++ "\n") := by
      rw [Stop.stderr, String.append_assoc]
      rfl
    exact .inl ⟨rfl, hasLine_stderr journal line (.inl rfl) (by decide) (.inl rfl)⟩
  | idle =>
    have line : ∃ rest, Stop.idle.stderr = "" ++ "Usage: " ++ rest := by
      simp only [Stop.stderr, Command.helpPage, Command.usageLine, String.append_assoc]
      exact ⟨_, rfl⟩
    obtain ⟨rest, line⟩ := line
    exact .inr ⟨rfl, .inr (hasLine_stderr journal line (.inl rfl) (by decide) (.inr rfl))⟩
  | misuse command fault =>
    have line : (Stop.misuse command fault).stderr =
        (if fault.showsUsage then Stop.usageHint command else "") ++ "Error: " ++
          (fault.message ++ "\n") := by
      simp only [Stop.stderr, String.append_assoc]
    refine .inr ⟨rfl, .inl (hasLine_stderr journal line ?_ ?_ (.inl rfl))⟩
    · split
      · exact endsLine_of_last _ rfl
      · exact .inl rfl
    · split
      · exact usageHint_visible command
      · decide

end Proofs

end SolidScript

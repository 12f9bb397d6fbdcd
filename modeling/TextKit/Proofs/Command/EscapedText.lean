import TextKit.Proofs.Command.Pipelines

/-!
# What is escaped is unescaped to the same text

Both conversions drop the line ends behind their input and write a line feed behind their output.
Nothing else is lost in two runs. Whatever stands before the line ends that the first run drops is
no line end, and its code does not end in one either, since white space has no code but itself. So
the second run drops just the line feed that the first one wrote.

Line ends inside of the text, and blanks other than line ends at both of its ends, are copied by
both runs.
-/

namespace TextKit

namespace HeaderSafe

open Text

variable {s t : Text}

/-- An escaped text that is written on a line of its own is read back without the end of it. -/
theorem trimLineEnds_escaped (hescape : escape s = .ok t)
    (hlast : ∀ c, s.getLast? = some c → isLineEnd c = false) :
    trimLineEnds (t ++ ['\n']) = t := by
  have hspells : Spells t s := unescape_eq_ok_iff.mp (escape_eq_ok_iff_unescape.mp hescape).1
  apply trimLineEnds_append_lineFeed
  intro c hc
  by_contra hend
  have hline : isLineEnd c = true := Bool.eq_true_of_not_eq_false hend
  have hplain := (getLast?_eq_blank_iff (isBlank_of_isLineEnd hline) hspells).mp hc
  exact hend (hlast c hplain)

end HeaderSafe

namespace Command

open Text

variable {text : Text}

theorem isLineEnd_iff {c : Char} : isLineEnd c = true ↔ c = '\r' ∨ c = '\n' := by
  rw [isLineEnd, Bool.or_eq_true, beq_iff_eq, beq_iff_eq]

/-- A text is what trimming leaves of it with line ends behind, and what is left ends in none. -/
theorem trimLineEnds_spec (text : Text) :
    (∃ ends, text = trimLineEnds text ++ ends ∧ ∀ c ∈ ends, c = '\r' ∨ c = '\n') ∧
      ∀ c, (trimLineEnds text).getLast? = some c → c ≠ '\r' ∧ c ≠ '\n' := by
  obtain ⟨ends, hends, hall⟩ := exists_dropEndWhile_append isLineEnd text
  refine ⟨⟨ends, hends, fun c hc => isLineEnd_iff.mp (hall c hc)⟩, ?_⟩
  intro c hc
  rw [← not_or, ← isLineEnd_iff, getLast?_dropEndWhile hc]
  exact Bool.false_ne_true

/-- The output of escaping is unescaped to what escaping took from its input. -/
theorem Request.answers_unescape_escaped {source source' : Location} {entropy entropy' : UInt64}
    {content : Bytes} (h : (escape source).Answers entropy (Utf8.encode text) content) :
    (unescape source').Answers entropy' content (lineBytes (trimLineEnds text)) := by
  obtain ⟨escaped, hescape, rfl⟩ := answers_escape.mp h
  have htrim := HeaderSafe.trimLineEnds_escaped hescape fun c => getLast?_dropEndWhile
  rw [lineBytes, answers_unescape, htrim]
  exact ⟨_, (HeaderSafe.escape_eq_ok_iff_unescape.mp hescape).1, rfl⟩

/-- If escaping ends well, unescaping its output ends well too, and prints the text without the
line ends behind it and with one line feed in their place. All else is as it was. -/
theorem unescape_gives_escaped {first second : Invocation} {source source' : Location}
    (hfirst : first.Asks (.escape source) (Utf8.encode text)) (hstatus : first.outcome.status = 0)
    (hsecond : second.Asks (.unescape source') first.outcome.stdout) :
    second.Gives (Utf8.encode (trimLineEnds text ++ ['\n'])) .standard ∧
      (∃ ends, text = trimLineEnds text ++ ends ∧ ∀ c ∈ ends, c = '\r' ∨ c = '\n') ∧
      ∀ c, (trimLineEnds text).getLast? = some c → c ≠ '\r' ∧ c ≠ '\n' := by
  refine ⟨?_, trimLineEnds_spec text⟩
  obtain ⟨middle, hmiddle⟩ := hfirst.exists_gives hstatus
  have hanswer := hfirst.gives_iff.mp hmiddle
  have hgives := (hfirst.pipe_gives_iff rfl hsecond).mpr
    ⟨middle, hanswer, Request.answers_unescape_escaped hanswer⟩
  exact hgives.2

/-- Blanks at both ends and the line end inside of the text are kept, and those behind it are
replaced by one. -/
theorem unescape_gives_escaped_of_two_lines :
    (Invocation.onStdin (Utf8.encode [' ', ',', '\r', '\n', '(', '\t', '\n', '\r', '\n'])
        ["escape"]).outcome.status = 0 ∧
      (Invocation.onStdin (Invocation.onStdin
        (Utf8.encode [' ', ',', '\r', '\n', '(', '\t', '\n', '\r', '\n'])
          ["escape"]).outcome.stdout ["unescape"]).Gives
            (Utf8.encode [' ', ',', '\r', '\n', '(', '\t', '\n']) .standard := by
  have hescape : Request.parse ["escape"] = .ok (.escape .standard) := rfl
  have hunescape : Request.parse ["unescape"] = .ok (.unescape .standard) := rfl
  have hstatus : (Invocation.onStdin
      (Utf8.encode [' ', ',', '\r', '\n', '(', '\t', '\n', '\r', '\n'])
        ["escape"]).outcome.status = 0 := by
    decide +kernel
  exact ⟨hstatus, (unescape_gives_escaped (Invocation.asks_onStdin hescape rfl rfl _) hstatus
    (Invocation.asks_onStdin hunescape rfl rfl _)).1⟩

end Command

end TextKit

import TextKit.Proofs.Command.LineSort
import TextKit.Proofs.Command.Pipelines
import TextKit.Proofs.Text.Lines

/-!
# Sorting what has been sorted

Sorted lines are written with a line feed behind each, and these are split again where they were
joined. Lines that are in order stay as they are. So sorting again changes nothing, except that a
carriage return in front of a line feed belongs to the end of the line: a line that ends in one has
its last one taken away each time, and may then belong to another place.
-/

namespace TextKit.Command

open Text Sorting

variable {keys : List SortKey} {delimiter : Option Char} {text : Text}

theorem not_mem_of_mem_sortedLines : ∀ line ∈ sortedLines keys delimiter text, '\n' ∉ line := by
  intro line hline
  exact not_mem_of_mem_lines (List.mem_mergeSort.mp hline)

/-- Sorted lines that are written are sorted again without one carriage return at their ends. -/
theorem sortedLines_unlines_sortedLines :
    sortedLines keys delimiter (unlines (sortedLines keys delimiter text)) =
      ((sortedLines keys delimiter text).map dropReturn).mergeSort
        (notAfter (lineOrder keys delimiter)) := by
  rw [sortedLines, lines_unlines not_mem_of_mem_sortedLines]

theorem mergeSort_sortedLines :
    (sortedLines keys delimiter text).mergeSort (notAfter (lineOrder keys delimiter)) =
      sortedLines keys delimiter text :=
  List.mergeSort_of_pairwise (sortedLines_spec keys delimiter text).2.1

/-- Sorting again gives the same lines just when none of them ends in a carriage return. -/
theorem sortedLines_again_iff :
    sortedLines keys delimiter (unlines (sortedLines keys delimiter text)) =
        sortedLines keys delimiter text ↔
      ∀ line ∈ lines text, line.getLast? ≠ some '\r' := by
  have hperm : (sortedLines keys delimiter text).Perm (lines text) := List.mergeSort_perm _ _
  rw [sortedLines_unlines_sortedLines]
  constructor
  · intro heq line hline
    have hdropped : ((sortedLines keys delimiter text).map dropReturn).Perm
        (sortedLines keys delimiter text) := by
      have hsort := List.mergeSort_perm ((sortedLines keys delimiter text).map dropReturn)
        (notAfter (lineOrder keys delimiter))
      rw [heq] at hsort
      exact hsort.symm
    exact map_dropReturn_perm_iff.mp hdropped line (hperm.mem_iff.mpr hline)
  · intro h
    have hsame : (sortedLines keys delimiter text).map dropReturn =
        sortedLines keys delimiter text := by
      rw [List.map_congr_left fun line hline =>
        dropReturn_of_ne (h line (hperm.mem_iff.mp hline)), List.map_id']
    rw [hsame, mergeSort_sortedLines]

theorem Request.answers_sort {entropy : UInt64} {source : Location} {seed : Option UInt64}
    {verbose : Bool} {content : Bytes} :
    (sort source keys delimiter none seed verbose).Answers entropy (Utf8.encode text) content ↔
      Utf8.encode (unlines (sortedLines keys delimiter text)) = content := by
  obtain ⟨response, hresponse, -, hcontent⟩ :=
    respondSort_encode entropy keys delimiter none seed verbose text
  have hlength : (sortedLines keys delimiter text).length = (lines text).length :=
    List.length_mergeSort _
  rw [shown, ← hlength, List.take_length] at hcontent
  rw [Answers, respond, hresponse, ← hcontent]
  exact ⟨by rintro ⟨-, ⟨⟩, rfl⟩; rfl, fun h => ⟨_, rfl, h⟩⟩

theorem Invocation.Asks.gives_sorted {i : Invocation} {source : Location} {seed : Option UInt64}
    {verbose : Bool}
    (h : i.Asks (.sort source keys delimiter none seed verbose) (Utf8.encode text)) :
    i.Gives (Utf8.encode (unlines (sortedLines keys delimiter text))) .standard :=
  h.gives_iff.mpr (Request.answers_sort.mpr rfl)

/-- Sorting ends well, and sorting its output again by the same keys gives the same output just
when the text does not end in a carriage return and has no line feed with two carriage returns in
front of it. -/
theorem sort_again {first second : Invocation} {source source' : Location}
    {seed seed' : Option UInt64} {verbose verbose' : Bool}
    (hfirst : first.Asks (.sort source keys delimiter none seed verbose) (Utf8.encode text))
    (hsecond : second.Asks (.sort source' keys delimiter none seed' verbose')
      first.outcome.stdout) :
    first.outcome.status = 0 ∧ second.outcome.status = 0 ∧
      (second.outcome.stdout = first.outcome.stdout ↔
        ¬ ['\r', '\r', '\n'] <:+: text ∧ text.getLast? ≠ some '\r') := by
  have hsorted := hfirst.gives_sorted
  rw [hsorted.2.1] at hsecond
  have hagain := hsecond.gives_sorted
  refine ⟨hsorted.1, hagain.1, ?_⟩
  rw [hsorted.2.1, hagain.2.1, Utf8.encode_inj,
    unlines_inj not_mem_of_mem_sortedLines not_mem_of_mem_sortedLines, sortedLines_again_iff,
    ← not_or, ← exists_line_return_iff]
  simp only [not_exists, not_and, ne_eq]

/-- The carriage return in front of the line feed is gone after the first run. -/
theorem sort_again_of_two_lines :
    (Invocation.onStdin (Invocation.onStdin (Utf8.encode ['b', '\r', '\n', 'a'])
        ["sort"]).outcome.stdout ["sort"]).outcome.stdout =
      (Invocation.onStdin (Utf8.encode ['b', '\r', '\n', 'a']) ["sort"]).outcome.stdout := by
  have hsort : Request.parse ["sort"] = .ok (.sort .standard [] none none none false) := rfl
  exact (sort_again (Invocation.asks_onStdin hsort rfl rfl _)
    (Invocation.asks_onStdin hsort rfl rfl _)).2.2.mpr (by decide)

/-- A carriage return at the end of the text is kept at first, but the first run writes a line feed
behind it, and so the second run drops it. -/
theorem sort_again_differs_for_return :
    (Invocation.onStdin (Utf8.encode ['a', '\r']) ["sort"]).outcome.stdout =
        Utf8.encode ['a', '\r', '\n'] ∧
      (Invocation.onStdin (Invocation.onStdin (Utf8.encode ['a', '\r']) ["sort"]).outcome.stdout
        ["sort"]).outcome.stdout = Utf8.encode ['a', '\n'] ∧
      (Invocation.onStdin (Invocation.onStdin (Utf8.encode ['a', '\r']) ["sort"]).outcome.stdout
        ["sort"]).outcome.stdout ≠
          (Invocation.onStdin (Utf8.encode ['a', '\r']) ["sort"]).outcome.stdout := by
  have hone : ∀ t line, lines t = [line] → sortedLines [] none t = [line] := by
    intro t line hline
    rw [sortedLines, hline, List.mergeSort_singleton]
  have hsort : Request.parse ["sort"] = .ok (.sort .standard [] none none none false) := rfl
  have hfirst : (Invocation.onStdin (Utf8.encode ['a', '\r']) ["sort"]).outcome.stdout =
      Utf8.encode ['a', '\r', '\n'] := by
    rw [(Invocation.asks_onStdin hsort rfl rfl _).gives_sorted.2.1, hone _ ['a', '\r'] (by decide)]
    rfl
  have hsecond : (Invocation.onStdin (Utf8.encode ['a', '\r', '\n']) ["sort"]).outcome.stdout =
      Utf8.encode ['a', '\n'] := by
    rw [(Invocation.asks_onStdin hsort rfl rfl _).gives_sorted.2.1, hone _ ['a'] (by decide)]
    rfl
  rw [hfirst, hsecond]
  exact ⟨rfl, rfl, by decide⟩

end TextKit.Command

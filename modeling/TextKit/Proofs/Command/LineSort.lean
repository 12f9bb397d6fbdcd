import TextKit.Proofs.Command.Answers
import TextKit.Proofs.Command.Arguments
import TextKit.Proofs.Sorting.MergeSort

/-!
# Sorting lines

The order of lines is stated here without the levels that it is sorted by. A key orders lines
by one of their fields, either by its bytes or by the place of the number in it, where a field
without a number has the least place of all. Keys are asked in turn, and without keys whole
lines are compared.

Both kinds of levels compare consistently, whatever stands in the fields. So a sort always
succeeds on text, and it writes the lines as a merge sort by this order has them, from the
first one on.
-/

namespace TextKit.Command

open Sorting

/-- The order of two lines by one key. Fields that are no number come first. -/
def SortKey.order (key : SortKey) (delimiter : Option Char) (a b : Text) : Ordering :=
  key.direction.apply <|
    if key.numeric then
      compare ((numberOf (key.select delimiter a)).map Binary64.orderKey)
        ((numberOf (key.select delimiter b)).map Binary64.orderKey)
    else compare (Utf8.encode (key.select delimiter a)) (Utf8.encode (key.select delimiter b))

/-- The order of two lines by the first of some keys that tells them apart. -/
def keysOrder (delimiter : Option Char) : List SortKey → Text → Text → Ordering
  | [], _, _ => .eq
  | key :: rest, a, b => (key.order delimiter a b).then (keysOrder delimiter rest a b)

/-- The order of two lines by some keys, or of whole lines if there are no keys. -/
def lineOrder (keys : List SortKey) (delimiter : Option Char) (a b : Text) : Ordering :=
  if keys = [] then compare (Utf8.encode a) (Utf8.encode b) else keysOrder delimiter keys a b

/-- The lines of a text in the order of some keys. Lines that the keys do not tell apart stay
in the order of the text. -/
def sortedLines (keys : List SortKey) (delimiter : Option Char) (text : Text) : List Text :=
  (Text.lines text).mergeSort (notAfter (lineOrder keys delimiter))

/-- How many lines are written of a given number. -/
def shown (head : Option UInt64) (total : Nat) : Nat :=
  match head with
  | some n => min n.toNat total
  | none => total

theorem compareNumbers_eq (l r : Option Binary64) :
    compareNumbers l r = compare (l.map Binary64.orderKey) (r.map Binary64.orderKey) := by
  cases l <;> cases r <;> rfl

theorem transCmp_compareNumbers : Std.TransCmp compareNumbers := by
  have heq : compareNumbers = compareOn (Option.map Binary64.orderKey) := by
    funext l r
    exact compareNumbers_eq l r
  rw [heq]
  infer_instance

theorem transCmp_compareBytes : Std.TransCmp compareBytes :=
  inferInstanceAs (Std.TransCmp (List.compareLex compare))

namespace SortKey

theorem order_level (key : SortKey) (delimiter : Option Char) (a b : Text) :
    (key.level delimiter).order a b = key.order delimiter a b := by
  rw [level, order, Level.order]
  cases key.numeric with
  | true => exact congrArg key.direction.apply (compareNumbers_eq _ _)
  | false => rfl

theorem transCmp_level (key : SortKey) (delimiter : Option Char) :
    Std.TransCmp (key.level delimiter).compare := by
  rw [level]
  cases key.numeric with
  | true => exact transCmp_compareNumbers
  | false => exact transCmp_compareBytes

end SortKey

theorem lexOrder_map_level (keys : List SortKey) (delimiter : Option Char) (a b : Text) :
    lexOrder (keys.map (·.level delimiter)) a b = keysOrder delimiter keys a b := by
  induction keys with
  | nil => rfl
  | cons key rest ih => rw [List.map_cons, lexOrder, keysOrder, key.order_level, ih]

/-- The levels that lines are sorted by give the order of lines. -/
theorem lexOrder_levelsOf (keys : List SortKey) (delimiter : Option Char) :
    lexOrder (levelsOf keys delimiter) = lineOrder keys delimiter := by
  funext a b
  cases keys with
  | nil => exact Ordering.then_eq
  | cons key rest => exact lexOrder_map_level (key :: rest) delimiter a b

theorem transCmp_of_mem_levelsOf {keys : List SortKey} {delimiter : Option Char}
    {level : Level Text} (h : level ∈ levelsOf keys delimiter) : Std.TransCmp level.compare := by
  cases keys with
  | nil =>
      obtain rfl := List.mem_singleton.mp h
      exact transCmp_compareBytes
  | cons key rest =>
      obtain ⟨key, -, rfl⟩ := List.mem_map.mp h
      exact key.transCmp_level delimiter

theorem transCmp_lineOrder (keys : List SortKey) (delimiter : Option Char) :
    Std.TransCmp (lineOrder keys delimiter) := by
  rw [← lexOrder_levelsOf]
  exact transCmp_lexOrder fun _ => transCmp_of_mem_levelsOf

/-- The sorted lines are those of the text. None is greater than one behind it, and lines that
the keys do not tell apart stay as they were. -/
theorem sortedLines_spec (keys : List SortKey) (delimiter : Option Char) (text : Text) :
    (sortedLines keys delimiter text).Perm (Text.lines text) ∧
      (sortedLines keys delimiter text).Pairwise
        (fun a b => (lineOrder keys delimiter a b).isLE = true) ∧
      ∀ tied : List Text, tied.Sublist (Text.lines text) →
        tied.Pairwise (fun a b => lineOrder keys delimiter a b = .eq) →
          tied.Sublist (sortedLines keys delimiter text) := by
  have horder := transCmp_lineOrder keys delimiter
  have htrans := @notAfter_trans _ (lineOrder keys delimiter) _
  have htotal := @notAfter_total _ (lineOrder keys delimiter) _
  refine ⟨List.mergeSort_perm _ _, List.pairwise_mergeSort htrans htotal _, ?_⟩
  intro tied htied heq
  apply List.sublist_mergeSort htrans htotal _ htied
  apply heq.imp
  intro a b hab
  rw [notAfter, hab]
  rfl

/-- A sort of text succeeds, and its output is the first of the sorted lines. -/
theorem respondSort_encode (entropy : UInt64) (keys : List SortKey) (delimiter : Option Char)
    (head seed : Option UInt64) (verbose : Bool) (text : Text) :
    ∃ response, respondSort entropy keys delimiter head seed verbose (Utf8.encode text) =
        .ok response ∧
      response.target = .standard ∧
      response.content = Utf8.encode (Text.unlines
        ((sortedLines keys delimiter text).take (shown head (Text.lines text).length))) := by
  have hlength : (sortedLines keys delimiter text).length = (Text.lines text).length :=
    List.length_mergeSort _
  have hconsistent : ∀ level ∈ (lineSequence (Text.lines text) keys delimiter seed).levels,
      Std.TransCmp level.compare := fun _ => transCmp_of_mem_levelsOf
  have hsorted : sortedLines keys delimiter text =
      (Text.lines text).mergeSort (notAfter (lexOrder (levelsOf keys delimiter))) := by
    rw [sortedLines, lexOrder_levelsOf]
  rw [respondSort, textOf_encode]
  refine ⟨_, rfl, rfl, congrArg (fun ls => Utf8.encode (Text.unlines ls)) ?_⟩
  cases head with
  | none =>
      rw [shown, ← hlength, List.take_length, hsorted]
      exact Sequence.drain_eq_mergeSort _ entropy hconsistent
  | some n =>
      rw [shown, ← hlength, ← List.take_eq_take_min, hsorted]
      exact Sequence.take_eq_mergeSort _ entropy hconsistent n.toNat

/-- Every sort can be asked for. On any text, whatever the seed, it ends well, and the first of
the sorted lines are written, each with a line feed. -/
theorem run_sort (w : Workspace) (stdin : Bytes) (entropy : UInt64) (file : Option String)
    {text : Text} (hinput : inputOf w stdin (some (.ofArgument file)) = .ok (Utf8.encode text))
    (keys : List SortKey) (delimiter : Option Char) (head seed : Option UInt64) (verbose : Bool) :
    (∃ args, Request.parse args =
      .ok (.sort (.ofArgument file) keys delimiter head seed verbose)) ∧
    ∀ args, Request.parse args = .ok (.sort (.ofArgument file) keys delimiter head seed verbose) →
      (run w stdin entropy args).status = 0 ∧
      (run w stdin entropy args).stdout = Utf8.encode (Text.unlines
        ((sortedLines keys delimiter text).take (shown head (Text.lines text).length))) := by
  constructor
  · have hfile : file ≠ some "" := by
      rintro rfl
      -- There is no file without a name.
      have hfault : inputOf w stdin (some (.ofArgument (some ""))) = .error (.storage .notFound) :=
        rfl
      rw [hfault] at hinput
      cases hinput
    exact ⟨_, parse_sortArguments hfile keys delimiter head seed verbose⟩
  · intro args hargs
    obtain ⟨response, hresponse, htarget, hcontent⟩ :=
      respondSort_encode entropy keys delimiter head seed verbose text
    have hrun : run w stdin entropy args = deliver w response := by
      rw [run, hargs]
      exact perform_of_ok hinput hresponse
    rw [hrun, deliver, htarget]
    exact ⟨rfl, hcontent⟩

/-- Two of these lines have the same number, and only the first of them is shown. -/
theorem run_sort_of_numeric_key :
    (run ⟨[]⟩ (Utf8.encode "b,2\na,10\nc,2\n".toList) 7
        ["sort", "-k", "2nr", "-t", ",", "--head", "2"]).status = 0 ∧
      (run ⟨[]⟩ (Utf8.encode "b,2\na,10\nc,2\n".toList) 7
        ["sort", "-k", "2nr", "-t", ",", "--head", "2"]).stdout =
          Utf8.encode "a,10\nb,2\n".toList := by
  have hlines : Text.lines "b,2\na,10\nc,2\n".toList =
      ["b,2".toList, "a,10".toList, "c,2".toList] := by decide
  have hmerge : ∀ (le : Text → Text → Bool) (a b c : Text), le b a = false → le a c = true →
      le b c = true → [b, a, c].mergeSort le = [a, b, c] := by
    intro le a b c hba hac hbc
    simp [List.mergeSort, hba, hac, hbc]
  have hsorted : sortedLines [⟨2, true, true, by decide⟩] (some ',') "b,2\na,10\nc,2\n".toList =
      ["a,10".toList, "b,2".toList, "c,2".toList] := by
    rw [sortedLines, hlines]
    exact hmerge _ _ _ _ (by decide) (by decide) (by decide)
  have hrun := (run_sort ⟨[]⟩ (Utf8.encode "b,2\na,10\nc,2\n".toList) 7 none rfl
    [⟨2, true, true, by decide⟩] (some ',') (some 2) none false).2
    ["sort", "-k", "2nr", "-t", ",", "--head", "2"] rfl
  rw [hsorted, hlines] at hrun
  exact hrun

end TextKit.Command

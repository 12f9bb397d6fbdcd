import TextKit.Command.Arguments
import TextKit.Proofs.Command.SortKey
import TextKit.Proofs.Outcome

/-!
# Command lines for given settings

A setting with its value attached to its long name is read without looking at the arguments
around it, because nothing is held back before it or after it. A command line made of such
settings is therefore read by entering them one after another.

In this way every order of lines, with or without a first part and a seed, can be asked for.
-/

namespace TextKit.Command

/-- A setting with its value attached to its long name. -/
def attached (given : Setting × Text) : String :=
  String.ofList ('-' :: '-' :: ((Switch.setting given.1).long.toList ++ '=' :: given.2))

/-- A name without an equals sign ends at the first one. -/
theorem splitLong_eq {name : Text} (h : name.all (· != '=') = true) (value : Text) :
    splitLong (name ++ '=' :: value) = (String.ofList name, some (String.ofList value)) := by
  have hname : ∀ c ∈ name, decide (c ≠ '=') = true := by simpa using h
  rw [splitLong, List.takeWhile_append_of_pos hname, List.dropWhile_append_of_pos hname,
    List.takeWhile_cons_of_neg (by decide), List.dropWhile_cons_of_neg (by decide),
    List.append_nil]

namespace Reading

/-- What has been read when some settings are entered and nothing is held back. -/
def settled (settings : Settings) : Reading where
  settings := settings

/-- Enter some settings one after another. -/
def enterAll : List (Setting × Text) → Settings → Except UsageError Settings
  | [], settings => .ok settings
  | given :: rest, settings =>
    (enter settings given.1 (String.ofList given.2)).bind (enterAll rest)

theorem enterAll_append (given more : List (Setting × Text)) (settings : Settings) :
    enterAll (given ++ more) settings = (enterAll given settings).bind (enterAll more) := by
  induction given generalizing settings with
  | nil => rfl
  | cons g given ih =>
      rw [List.cons_append, enterAll, enterAll]
      cases enter settings g.1 (String.ofList g.2) with
      | error error => rfl
      | ok settings => exact ih settings

theorem attach_settled (settings : Settings) (s : Setting) (text : String) :
    (settled settings).attach s text = (enter settings s text).map settled := by
  change (enter settings s text).bind (fun settings => .ok (settled settings)) = _
  cases enter settings s text <;> rfl

end Reading

namespace Verb

open Reading

theorem readLong_attached {verb : Verb} {s : Setting}
    (h : verb.long? (Switch.setting s).long = some (.setting s)) (value : Text)
    (settings : Settings) :
    verb.readLong ((Switch.setting s).long.toList ++ '=' :: value) (settled settings) =
      (enter settings s (String.ofList value)).map settled := by
  have hname : (Switch.setting s).long.toList.all (· != '=') = true := by
    cases s <;> decide
  rw [readLong, splitLong_eq hname, String.ofList_toList]
  simp only [h]
  exact attach_settled settings s _

/-- A setting that is attached is entered before the rest is read. -/
theorem readArguments_attached {verb : Verb} {s : Setting}
    (h : verb.long? (Switch.setting s).long = some (.setting s)) (value : Text)
    (rest : List String) (settings : Settings) :
    verb.readArguments false (attached (s, value) :: rest) (settled settings) =
      (enter settings s (String.ofList value)).bind fun settings =>
        verb.readArguments false rest (settled settings) := by
  have hlong := readLong_attached h value settings
  obtain ⟨c, body, hbody⟩ : ∃ c body, (Switch.setting s).long.toList ++ '=' :: value = c :: body :=
    List.exists_cons_of_ne_nil (by simp)
  rw [hbody] at hlong
  rw [readArguments, attached, String.toList_ofList, hbody]
  change (verb.readLong (c :: body) (settled settings)).bind (verb.readArguments false rest) = _
  rw [hlong]
  cases enter settings s (String.ofList value) <;> rfl

/-- Attached settings are entered one after another before the rest is read. -/
theorem readArguments_map_attached {verb : Verb} {given : List (Setting × Text)}
    (h : ∀ g ∈ given, verb.long? (Switch.setting g.1).long = some (.setting g.1))
    (rest : List String) (settings : Settings) :
    verb.readArguments false (given.map attached ++ rest) (settled settings) =
      (enterAll given settings).bind fun settings =>
        verb.readArguments false rest (settled settings) := by
  induction given generalizing settings with
  | nil => rfl
  | cons g given ih =>
      obtain ⟨hg, hrest⟩ := List.forall_mem_cons.mp h
      rw [List.map_cons, List.cons_append, readArguments_attached hg, enterAll]
      cases enter settings g.1 (String.ofList g.2) with
      | error error => rfl
      | ok settings => exact ih hrest settings

end Verb

/-- The settings of a sort. -/
def sortSettings (keys : List SortKey) (delimiter : Option Char) (head seed : Option UInt64) :
    List (Setting × Text) :=
  keys.map (fun key => (.key, key.print)) ++ (delimiter.toList.map (fun c => (.delimiter, [c])) ++
    (head.toList.map (fun n => (.head, Numeral.write n)) ++
      seed.toList.map fun n => (.seed, Numeral.write n)))

/-- A command line that asks for a sort. The name of the input stands behind two hyphens,
because it might look like a switch. -/
def sortArguments (file : Option String) (keys : List SortKey) (delimiter : Option Char)
    (head seed : Option UInt64) (verbose : Bool) : List String :=
  Verb.sort.name :: ((sortSettings keys delimiter head seed).map attached ++
    ((if verbose then ["--verbose"] else []) ++ file.toList.flatMap fun name => ["--", name]))

namespace Reading

theorem enterAll_keys (keys : List SortKey) (settings : Settings) :
    enterAll (keys.map fun key => (.key, key.print)) settings =
      .ok { settings with keys := settings.keys ++ keys } := by
  induction keys generalizing settings with
  | nil => simp [enterAll]
  | cons key keys ih =>
      have henter : enter settings .key (String.ofList key.print) =
          .ok { settings with keys := settings.keys ++ [key] } := by
        rw [enter, String.toList_ofList, SortKey.parse_print]
        rfl
      rw [List.map_cons, enterAll, henter, bind_ok, ih, List.append_assoc]
      rfl

/-- A setting that may be given once is entered if it is given. -/
theorem enterAll_option {α : Type} (given : Option α) (s : Setting) (text : α → Text)
    (settings result : Settings) (hnone : given = none → settings = result)
    (hsome : ∀ a, given = some a → enter settings s (String.ofList (text a)) = .ok result) :
    enterAll (given.toList.map fun a => (s, text a)) settings = .ok result := by
  cases given with
  | none =>
      rw [← hnone rfl]
      rfl
  | some a =>
      rw [Option.toList_some, List.map_singleton, enterAll, hsome a rfl]
      rfl

theorem enter_delimiter {settings : Settings} (h : settings.delimiter = none) (c : Char) :
    enter settings .delimiter (String.ofList [c]) =
      .ok { settings with delimiter := some c } := by
  rw [enter, h, requireCharacter, String.toList_ofList]
  rfl

theorem enter_head {settings : Settings} (h : settings.head = none) (n : UInt64) :
    enter settings .head (String.ofList (Numeral.write n)) =
      .ok { settings with head := some n } := by
  rw [enter, h, String.toList_ofList, Numeral.read_write]
  rfl

theorem enter_seed {settings : Settings} (h : settings.seed = none) (n : UInt64) :
    enter settings .seed (String.ofList (Numeral.write n)) =
      .ok { settings with seed := some n } := by
  rw [enter, h, String.toList_ofList, Numeral.read_write]
  rfl

/-- Each setting is given where it has not been given before, except for keys, which add up. -/
theorem enterAll_sortSettings (keys : List SortKey) (delimiter : Option Char)
    (head seed : Option UInt64) :
    enterAll (sortSettings keys delimiter head seed) {} =
      .ok { keys := keys, delimiter := delimiter, head := head, seed := seed } := by
  have hdelimiter := enterAll_option delimiter .delimiter (fun c => [c])
    { keys := keys } { keys := keys, delimiter := delimiter } (by rintro rfl; rfl)
    (by rintro c rfl; exact enter_delimiter rfl c)
  have hhead := enterAll_option head .head Numeral.write
    { keys := keys, delimiter := delimiter } { keys := keys, delimiter := delimiter, head := head }
    (by rintro rfl; rfl) (by rintro n rfl; exact enter_head rfl n)
  have hseed := enterAll_option seed .seed Numeral.write
    { keys := keys, delimiter := delimiter, head := head }
    { keys := keys, delimiter := delimiter, head := head, seed := seed }
    (by rintro rfl; rfl) (by rintro n rfl; exact enter_seed rfl n)
  rw [sortSettings, enterAll_append, enterAll_keys, bind_ok, enterAll_append]
  change ((enterAll _ { keys := keys }).bind _) = _
  rw [hdelimiter, bind_ok, enterAll_append, hhead, bind_ok, hseed]

end Reading

theorem long?_of_mem_sortSettings {keys : List SortKey} {delimiter : Option Char}
    {head seed : Option UInt64} {given : Setting × Text}
    (h : given ∈ sortSettings keys delimiter head seed) :
    Verb.sort.long? (Switch.setting given.1).long = some (.setting given.1) := by
  have hlong : ∀ s ∈ [Setting.key, .delimiter, .head, .seed],
      Verb.sort.long? (Switch.setting s).long = some (.setting s) := by decide
  apply hlong
  simp only [sortSettings, List.mem_append, List.mem_map] at h
  obtain ⟨_, -, rfl⟩ | ⟨_, -, rfl⟩ | ⟨_, -, rfl⟩ | ⟨_, -, rfl⟩ := h <;> simp

/-- A name behind two hyphens is the input, unless it is empty. -/
theorem readArguments_name {file : Option String} (hfile : file ≠ some "") {settings : Settings}
    (h : settings.file = none) :
    Verb.sort.readArguments false (file.toList.flatMap fun name => ["--", name])
        (Reading.settled settings) =
      Verb.sort.request { settings with file := file } := by
  cases file with
  | none =>
      have hsame : { settings with file := none } = settings := by rw [← h]
      rw [hsame]
      rfl
  | some name =>
      have hempty : name.isEmpty = false := by simpa using hfile
      have hsettle : Reading.settle ⟨settings, .file name, true, false⟩ =
          .ok ⟨{ settings with file := some name }, .nothing, true, false⟩ := by
        rw [Reading.settle]
        dsimp only
        rw [Reading.requireText, hempty]
        rfl
      have hend : Verb.sort.readArguments true [] ⟨settings, .file name, true, false⟩ =
          Verb.sort.request { settings with file := some name } := by
        rw [Verb.readArguments, hsettle]
        rfl
      exact hend

/-- The flag of a sort is raised before the rest is read. -/
theorem readArguments_verbose {settings : Settings} (h : settings.verbose = false)
    (verbose : Bool) (rest : List String) :
    Verb.sort.readArguments false ((if verbose then ["--verbose"] else []) ++ rest)
        (Reading.settled settings) =
      Verb.sort.readArguments false rest
        (Reading.settled { settings with verbose := verbose }) := by
  cases verbose with
  | false =>
      have hsame : { settings with verbose := false } = settings := by rw [← h]
      rw [hsame]
      rfl
  | true =>
      have hraise : (Reading.settled settings).raise .verbose =
          .ok (Reading.settled { settings with verbose := true }) := by
        change (Reading.requireFirst settings.verbose (.flag .verbose)).bind _ = _
        rw [h]
        rfl
      have hread : Verb.sort.readArguments false ("--verbose" :: rest) (Reading.settled settings) =
          ((Reading.settled settings).raise .verbose).bind
            (Verb.sort.readArguments false rest) := by
        rfl
      rw [if_pos rfl, List.singleton_append, hread, hraise, bind_ok]

/-- Every sort can be asked for, from standard input or from a file with a name. -/
theorem parse_sortArguments {file : Option String} (hfile : file ≠ some "") (keys : List SortKey)
    (delimiter : Option Char) (head seed : Option UInt64) (verbose : Bool) :
    Request.parse (sortArguments file keys delimiter head seed verbose) =
      .ok (.sort (.ofArgument file) keys delimiter head seed verbose) := by
  have hverb : Verb.ofName? Verb.sort.name = some .sort := by decide
  have hlong : ∀ g ∈ sortSettings keys delimiter head seed,
      Verb.sort.long? (Switch.setting g.1).long = some (.setting g.1) :=
    fun _ => long?_of_mem_sortSettings
  rw [Request.parse, sortArguments, Request.parseFrom, hverb]
  change Verb.sort.readArguments false _ (Reading.settled {}) = _
  rw [Verb.readArguments_map_attached hlong, Reading.enterAll_sortSettings, bind_ok,
    readArguments_verbose rfl, readArguments_name hfile rfl]
  rfl

end TextKit.Command

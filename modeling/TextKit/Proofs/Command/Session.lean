import TextKit.Proofs.Command.OutputSetting
import TextKit.Proofs.Command.Response

/-!
# Runs are all or nothing

The input of a request is read as a whole before the place of its output is opened, which takes
away what was there. Opening that place is the last step that can fail. So a run that fails has
neither written nor taken away anything, and one that ends well has put the complete output in its
place and changed nothing else, also when that place was the input. The place is the one that the
command line names.
-/

namespace TextKit.Command

/-- The same request with its output on the standard stream. -/
def Request.onStandard : Request → Request
  | encode source _ alphabet json verbose => encode source .standard alphabet json verbose
  | decode source _ alphabet verbose => decode source .standard alphabet verbose
  | request => request

namespace Outcome

/-- A failure that leaves nothing on the standard stream and all files as they were. -/
def Withheld (o : Outcome) (w : Workspace) : Prop :=
  o.status ≠ 0 ∧ o.stdout = [] ∧ o.workspace = w

/-- The content is at its target, complete, and all other files are as they were. -/
def Delivered (o : Outcome) (w : Workspace) (content : Bytes) : Location → Prop
  | .standard => o.stdout = content ∧ o.workspace = w
  | .file path => o.stdout = [] ∧ o.workspace.read path = .ok content ∧
      ∃ place, w.Names path place ∧ o.workspace.content? place = some content ∧
        ∀ other, other ≠ place → o.workspace.content? other = w.content? other

end Outcome

section Stages

variable {w : Workspace} {stdin input : Bytes} {entropy : UInt64} {request : Request}
variable {response : Response}

/-- The parts of an answer do not depend on where it is put. -/
theorem respond_onStandard (h : request.respond entropy input = .ok response) :
    response.target = request.target ∧
      request.onStandard.respond entropy input = .ok { response with target := .standard } := by
  cases request with
  | showVersion | showHelp | completions shell =>
      cases h
      exact ⟨rfl, rfl⟩
  | encode source target alphabet json verbose =>
      obtain ⟨text, htext, h⟩ := bind_eq_ok_iff.mp h
      cases h
      exact ⟨rfl, bind_eq_ok_iff.mpr ⟨text, htext, rfl⟩⟩
  | decode source target alphabet verbose =>
      obtain ⟨text, htext, h⟩ := bind_eq_ok_iff.mp h
      obtain ⟨bytes, hbytes, h⟩ := bind_eq_ok_iff.mp h
      cases h
      exact ⟨rfl, bind_eq_ok_iff.mpr ⟨text, htext, bind_eq_ok_iff.mpr ⟨bytes, hbytes, rfl⟩⟩⟩
  | escape source | unescape source =>
      obtain ⟨text, htext, h⟩ := bind_eq_ok_iff.mp h
      obtain ⟨output, houtput, h⟩ := bind_eq_ok_iff.mp h
      cases h
      exact ⟨rfl, bind_eq_ok_iff.mpr ⟨text, htext, bind_eq_ok_iff.mpr ⟨output, houtput, rfl⟩⟩⟩
  | sort source keys delimiter head seed verbose =>
      obtain ⟨text, htext, h⟩ := bind_eq_ok_iff.mp h
      cases h
      exact ⟨rfl, bind_eq_ok_iff.mpr ⟨text, htext, rfl⟩⟩

/-- A request whose input is there and has an answer is performed by delivering the answer. -/
theorem perform_of_ok (hinput : inputOf w stdin request.source? = .ok input)
    (hresponse : request.respond entropy input = .ok response) :
    perform w stdin entropy request = deliver w response := by
  have hanswer : inputOf w stdin request.source? >>= request.respond entropy = .ok response :=
    bind_eq_ok_iff.mpr ⟨input, hinput, hresponse⟩
  rw [perform_eq_conclude, hanswer, conclude]

/-- Without input or without an answer, nothing is delivered. -/
theorem perform_cases (w : Workspace) (stdin : Bytes) (entropy : UInt64) (request : Request) :
    (perform w stdin entropy request).Withheld w ∨
      ∃ input response, inputOf w stdin request.source? = .ok input ∧
        request.respond entropy input = .ok response := by
  rw [perform_eq_conclude]
  cases hanswer : inputOf w stdin request.source? >>= request.respond entropy with
  | error failure => exact .inl ⟨Nat.succ_ne_zero _, rfl, rfl⟩
  | ok response =>
      obtain ⟨input, hinput, hresponse⟩ := bind_eq_ok_iff.mp hanswer
      exact .inr ⟨input, response, hinput, hresponse⟩

/-- Either the place of the output cannot be opened, or the output is delivered. -/
theorem deliver_cases (w : Workspace) (response : Response) :
    (deliver w response).Withheld w ∨
      (deliver w response).status = 0 ∧
        (deliver w response).Delivered w response.content response.target := by
  rw [deliver]
  cases response.target with
  | standard => exact .inr ⟨rfl, rfl, rfl⟩
  | file path =>
      dsimp only
      cases hcreate : w.create path with
      | error fault => exact .inl ⟨Nat.succ_ne_zero _, rfl, rfl⟩
      | ok opened =>
          obtain ⟨hnames, hread⟩ := Workspace.read_of_create hcreate response.content
          exact .inr ⟨rfl, rfl, hread, _, hnames, Workspace.content?_put_self ..,
            fun _ => Workspace.content?_put_of_ne w _ _⟩

end Stages

/-- A file that is its own output is encoded from what it held before. -/
example : run (.ofFiles [("a", [0, 0, 0, 0, 1])]) [] 0 ["encode", "a", "-o", "a"] =
    ⟨0, [], "", .ofFiles [("a", Utf8.encode "z!<\n".toList)]⟩ := by
  decide +kernel

end TextKit.Command

import TextKit.Ascii85.Group

/-!
# Writing bytes as Ascii85

Each full group of four bytes becomes its five digits, or `z` when all four are
zero. A last group of `n` bytes, fewer than four, is filled up with zero bytes
and keeps only its first `n + 1` digits; it is never shortened to `z`.

Groups are independent of each other. So a long input may be divided at group
boundaries, and the parts are then encoded at the same time.
-/

namespace TextKit.Ascii85

/-- The text of a full group. -/
def fullGroup (word : Nat) : Text :=
  if word = 0 then [zeroGroup] else (digits word).map digitChar

/-- The text of the last bytes, fewer than four. -/
def shortGroup (tail : Bytes) : Text :=
  if tail.isEmpty then []
  else
    let word := wordOfBytes (tail ++ List.replicate (4 - tail.length) 0)
    ((digits word).take (tail.length + 1)).map digitChar

/-- Append the text of the remaining bytes to what is already written. -/
def encodeOnto (done : Array Char) : Bytes → Array Char
  | a :: b :: c :: d :: rest => encodeOnto (done ++ fullGroup (wordOfBytes [a, b, c, d])) rest
  | tail => done ++ shortGroup tail

/-- The Ascii85 text of a byte string. -/
def encode (bytes : Bytes) : Text := (encodeOnto #[] bytes).toList

theorem toList_encodeOnto : ∀ (done : Array Char) (bytes : Bytes),
    (encodeOnto done bytes).toList = done.toList ++ encode bytes
  | done, a :: b :: c :: d :: rest => by
    rw [encode, encodeOnto, encodeOnto, toList_encodeOnto _ rest, toList_encodeOnto _ rest]
    simp
  | done, [] => by simp [encode, encodeOnto]
  | done, [a] => by simp [encode, encodeOnto]
  | done, [a, b] => by simp [encode, encodeOnto]
  | done, [a, b, c] => by simp [encode, encodeOnto]

/-- A full group in front is written before the rest. -/
@[simp] theorem encode_group (a b c d : UInt8) (rest : Bytes) :
    encode (a :: b :: c :: d :: rest) = fullGroup (wordOfBytes [a, b, c, d]) ++ encode rest := by
  rw [encode, encodeOnto, toList_encodeOnto]
  simp

/-- Fewer than four bytes are one short group. -/
theorem encode_tail {tail : Bytes} (h : tail.length < 4) : encode tail = shortGroup tail := by
  match tail, h with
  | [], _ | [_], _ | [_, _], _ | [_, _, _], _ => simp [encode, encodeOnto]

/-- An upper bound for the length of the text of `n` bytes, in machine words. It
is exact when no full group is zero. -/
def encodedLength (n : UInt64) : UInt64 :=
  n / 4 * 5 + if n % 4 = 0 then 0 else n % 4 + 1

/-- Consecutive parts of `size` bytes; the last one may be shorter. -/
def chunks (size : Nat) (positive : 0 < size) : Bytes → List Bytes
  | [] => []
  | b :: rest => (b :: rest).take size :: chunks size positive ((b :: rest).drop size)
termination_by bytes => bytes.length
decreasing_by
  simp only [List.length_drop, List.length_cons]
  omega

/-- Encode parts of `size` bytes at the same time, and join the texts in order. -/
def encodeChunks (size : Nat) (positive : 0 < size) (bytes : Bytes) : Text :=
  let tasks := (chunks size positive bytes).map fun part => Task.spawn fun _ => encode part
  tasks.flatMap Task.get

/-- Size of the parts that `encodeParallel` works on, a multiple of the group. -/
def parallelChunkSize : Nat := 65536

/-- The text of a byte string, with the parts of a long one encoded at the same time. -/
def encodeParallel (bytes : Bytes) : Text :=
  if bytes.length ≤ parallelChunkSize then encode bytes
  else encodeChunks parallelChunkSize (by decide) bytes

end TextKit.Ascii85

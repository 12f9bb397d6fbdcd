import TextKit.Proofs.Command.Answers
import TextKit.Proofs.HeaderSafe.Cuts

/-!
# Runs that work on the output of other runs

The line end behind a text output is no part of it, and the next run drops it again. Bytes are
written without blanks, so nothing else is dropped from an encoding, and whatever blanks are put
around it do no harm either.

Header-safe text can be written and read in one run or in two, with plain Ascii85 in between. The
runs trim by different rules, one before unescaping and one after it. This makes no difference,
since blanks around a text stay around it when it is unescaped.
-/

namespace TextKit.Command

open Text

/-- Two runs in a row come out as their requests do, one on the answer to the other. -/
theorem Invocation.Asks.pipe_gives_iff {first second : Invocation} {request request' : Request}
    {input content : Bytes} (hfirst : first.Asks request input)
    (hstandard : request.target = .standard)
    (hsecond : second.Asks request' first.outcome.stdout) :
    first.outcome.status = 0 ∧ second.Gives content request'.target ↔
      ∃ middle, request.Answers first.entropy input middle ∧
        request'.Answers second.entropy middle content := by
  have hstdout : ∀ {middle}, first.Gives middle request.target →
      first.outcome.stdout = middle := by
    intro middle hgives
    rw [hstandard] at hgives
    exact hgives.2.1
  constructor
  · rintro ⟨hstatus, hgives⟩
    obtain ⟨middle, hmiddle⟩ := hfirst.exists_gives hstatus
    exact ⟨middle, hfirst.gives_iff.mp hmiddle, hstdout hmiddle ▸ hsecond.gives_iff.mp hgives⟩
  · rintro ⟨middle, hmiddle, hcontent⟩
    have hgives := hfirst.gives_iff.mpr hmiddle
    exact ⟨hgives.1, hsecond.gives_iff.mpr ((hstdout hgives).symm ▸ hcontent)⟩

section Trimming

variable {t front back : Text}

/-- A text without blanks is all that is left of its line, whatever blanks are around it. -/
theorem trim_around_line (ht : ∀ c ∈ t, isBlank c = false) (hfront : ∀ c ∈ front, isBlank c = true)
    (hback : ∀ c ∈ back, isBlank c = true) : trim (front ++ (t ++ ['\n']) ++ back) = t := by
  have hend : ∀ c ∈ '\n' :: back, isBlank c = true := List.forall_mem_cons.mpr ⟨by decide, hback⟩
  have hsame : front ++ (t ++ ['\n']) ++ back = front ++ (t ++ '\n' :: back) := by simp
  rw [hsame]
  exact (tight_of_forall ht).trimWhile_frame hfront hend

theorem trimLineEnds_line (ht : ∀ c ∈ t, isBlank c = false) : trimLineEnds (t ++ ['\n']) = t := by
  apply trimLineEnds_append_lineFeed
  intro c hlast
  by_contra hend
  have hblank := isBlank_of_isLineEnd (Bool.eq_true_of_not_eq_false hend)
  rw [ht c (List.mem_of_getLast? hlast)] at hblank
  cases hblank

theorem Alphabet.isBlank_of_mem_write (alphabet : Alphabet) (bytes : Bytes) :
    ∀ c ∈ alphabet.write bytes, isBlank c = false := by
  intro c hc
  obtain ⟨hlow, hhigh⟩ := alphabet.visible_of_mem_write bytes c hc
  exact isBlank_eq_false_of_visible hlow hhigh

end Trimming

namespace Request

variable {source source' source'' target target' : Location} {alphabet : Alphabet}
variable {verbose verbose' : Bool} {entropy entropy' entropy'' : UInt64} {bytes content : Bytes}
variable {text front back : Text}

/-- What has been written for bytes is read as these bytes. -/
theorem answers_decode_written (hfront : ∀ c ∈ front, isBlank c = true)
    (hback : ∀ c ∈ back, isBlank c = true) :
    (decode source target alphabet verbose).Answers entropy
      (Utf8.encode front ++ lineBytes (alphabet.write bytes) ++ Utf8.encode back) bytes := by
  rw [lineBytes, ← Utf8.encode_append, ← Utf8.encode_append, answers_decode,
    trim_around_line (alphabet.isBlank_of_mem_write bytes) hfront hback]
  exact alphabet.codec_decode_write bytes

/-- What has been written for bytes in plain Ascii85 is escaped to what is written for them in
the header-safe alphabet. -/
theorem answers_escape_written :
    (escape source).Answers entropy (lineBytes (Alphabet.ascii85.write bytes)) content ↔
      lineBytes (Alphabet.httpHeader.write bytes) = content := by
  have hescape : HeaderSafe.escape (Alphabet.ascii85.write bytes) =
      .ok (Alphabet.httpHeader.write bytes) := HeaderSafe.escape_encode bytes
  rw [lineBytes, answers_escape, trimLineEnds_line (Alphabet.ascii85.isBlank_of_mem_write bytes),
    hescape]
  simp

/-- Reading header-safe text is unescaping it and reading the result as Ascii85. -/
theorem answers_decode_iff_unescape :
    (decode source target .httpHeader verbose).Answers entropy (Utf8.encode text) bytes ↔
      ∃ middle, (unescape source').Answers entropy' (Utf8.encode text) middle ∧
        (decode source'' target' .ascii85 verbose').Answers entropy'' middle bytes := by
  have hplain : ∀ r, (decode source'' target' .ascii85 verbose').Answers entropy'' (lineBytes r)
      bytes ↔ Ascii85.decode (trim r) = .ok bytes := by
    intro r
    rw [lineBytes, answers_decode, trim_append_lineEnd]
    rfl
  rw [answers_decode]
  constructor
  · intro h
    obtain ⟨s, hs, hbytes⟩ := bind_eq_ok_iff.mp h
    rw [← trim_trimLineEnds] at hs
    obtain ⟨r, hr, rfl⟩ := HeaderSafe.unescape_trim_eq_ok_iff.mp hs
    exact ⟨lineBytes r, answers_unescape.mpr ⟨r, hr, rfl⟩, (hplain r).mpr hbytes⟩
  · rintro ⟨middle, hmiddle, hbytes⟩
    obtain ⟨r, hr, rfl⟩ := answers_unescape.mp hmiddle
    have hs := HeaderSafe.unescape_trim_eq_ok_iff.mpr ⟨r, hr, rfl⟩
    rw [trim_trimLineEnds] at hs
    exact bind_eq_ok_iff.mpr ⟨trim r, hs, (hplain r).mp hbytes⟩

end Request

/-- Encoding ends well, and decoding in the same alphabet gives the bytes back from what has been
written, also with blanks around it. -/
theorem decode_gives_encoded {first : Invocation} {source target : Location} {alphabet : Alphabet}
    {verbose : Bool} {bytes : Bytes}
    (hfirst : first.Asks (.encode source target alphabet false verbose) bytes) :
    ∃ written, first.Gives written target ∧
      ∀ (second : Invocation) (source' target' : Location) (verbose' : Bool) (front back : Text),
        (∀ c ∈ front, isBlank c = true) → (∀ c ∈ back, isBlank c = true) →
        second.Asks (.decode source' target' alphabet verbose')
          (Utf8.encode front ++ written ++ Utf8.encode back) →
        second.Gives bytes target' := by
  refine ⟨_, hfirst.gives_iff.mpr (Request.answers_encode.mpr rfl), ?_⟩
  intro second source' target' verbose' front back hfront hback hsecond
  exact hsecond.gives_iff.mpr (Request.answers_decode_written hfront hback)

/-- The bytes come back from the file that they were encoded to, and also with an ideographic space
in front of them and a tabulator behind them. -/
theorem decode_gives_encoded_of_file :
    ∃ written,
      (Invocation.mk (.ofFiles []) [0, 5] 0 ["encode", "-a", "http-header", "-o", "out"]).Gives
        written (.file "out") ∧
      (Invocation.mk (run (.ofFiles []) [0, 5] 0
        ["encode", "-a", "http-header", "-o", "out"]).workspace [] 0
        ["decode", "-a", "http-header", "out"]).Gives [0, 5] .standard ∧
      (Invocation.mk (.ofFiles []) (Utf8.encode ['\u3000'] ++ written ++ Utf8.encode ['\t']) 0
        ["decode", "-a", "http-header"]).Gives [0, 5] .standard := by
  have hencode : (Invocation.mk (.ofFiles []) [0, 5] 0
      ["encode", "-a", "http-header", "-o", "out"]).Asks
        (.encode .standard (.file "out") .httpHeader false false) [0, 5] := ⟨rfl, rfl, _, rfl⟩
  obtain ⟨written, hgives, hback⟩ := decode_gives_encoded hencode
  have hdecode : (Invocation.mk (run (.ofFiles []) [0, 5] 0
      ["encode", "-a", "http-header", "-o", "out"]).workspace [] 0
      ["decode", "-a", "http-header", "out"]).Asks
        (.decode (.file "out") .standard .httpHeader false) written :=
    ⟨rfl, hgives.inputOf_eq [], trivial⟩
  have hframed : (Invocation.mk (.ofFiles [])
      (Utf8.encode ['\u3000'] ++ written ++ Utf8.encode ['\t']) 0
      ["decode", "-a", "http-header"]).Asks (.decode .standard .standard .httpHeader false)
        (Utf8.encode ['\u3000'] ++ written ++ Utf8.encode ['\t']) := ⟨rfl, rfl, trivial⟩
  refine ⟨written, hgives, ?_, ?_⟩
  · refine hback _ (.file "out") .standard false [] [] (by simp) (by simp) ?_
    rw [Utf8.encode_nil, List.nil_append, List.append_nil]
    exact hdecode
  · exact hback _ .standard .standard false ['\u3000'] ['\t']
      (List.forall_mem_singleton.mpr (by decide)) (List.forall_mem_singleton.mpr (by decide))
      hframed

/-- Escaping what encoding has written is encoding in the header-safe alphabet. Decoding in that
alphabet gives just what decoding gives for what has been unescaped. -/
theorem two_runs_agree_with_one :
    (∀ {first second direct : Invocation} {source source' source'' : Location}
        {verbose verbose'' : Bool} {bytes : Bytes},
      first.Asks (.encode source .standard .ascii85 false verbose) bytes →
      second.Asks (.escape source') first.outcome.stdout →
      direct.Asks (.encode source'' .standard .httpHeader false verbose'') bytes →
      second.outcome.status = direct.outcome.status ∧
        second.outcome.stdout = direct.outcome.stdout) ∧
    ∀ {first second direct : Invocation} {source source' source'' target' target'' : Location}
        {verbose' verbose'' : Bool} {text : Text} {bytes : Bytes},
      first.Asks (.unescape source) (Utf8.encode text) →
      second.Asks (.decode source' target' .ascii85 verbose') first.outcome.stdout →
      direct.Asks (.decode source'' target'' .httpHeader verbose'') (Utf8.encode text) →
      (direct.Gives bytes target'' ↔ first.outcome.status = 0 ∧ second.Gives bytes target') := by
  constructor
  · intro first second direct source source' source'' verbose verbose'' bytes hfirst hsecond hdirect
    have hescaped := (hfirst.pipe_gives_iff rfl hsecond).mpr
      ⟨_, Request.answers_encode.mpr rfl, Request.answers_escape_written.mpr rfl⟩
    have hencoded := hdirect.gives_iff.mpr (Request.answers_encode.mpr rfl)
    exact ⟨hescaped.2.1.trans hencoded.1.symm, hescaped.2.2.1.trans hencoded.2.1.symm⟩
  · intro first second direct source source' source'' target' target'' verbose' verbose'' text
      bytes hfirst hsecond hdirect
    have hpipe : _ ∧ second.Gives bytes target' ↔ _ := hfirst.pipe_gives_iff rfl hsecond
    exact hdirect.gives_iff.trans (Request.answers_decode_iff_unescape.trans hpipe.symm)

/-- The text of this byte begins with a quotation mark, which has an escape. When it is read, there
is an ideographic space in front of it, and behind it a space and the end of a line. -/
theorem two_runs_agree_with_one_of_quote :
    (Invocation.onStdin (Invocation.onStdin [5] ["encode"]).outcome.stdout
        ["escape"]).outcome.stdout =
      (Invocation.onStdin [5] ["encode", "-a", "http-header"]).outcome.stdout ∧
    (Invocation.onStdin (Utf8.encode "\u3000~eT \r\n".toList)
        ["decode", "-a", "http-header"]).Gives [5] .standard ∧
    (Invocation.onStdin (Invocation.onStdin (Utf8.encode "\u3000~eT \r\n".toList)
        ["unescape"]).outcome.stdout ["decode"]).Gives [5] .standard := by
  have hencode : Request.parse ["encode"] =
      .ok (.encode .standard .standard .ascii85 false false) := rfl
  have hdecode : Request.parse ["decode"] = .ok (.decode .standard .standard .ascii85 false) := rfl
  have hencode' : Request.parse ["encode", "-a", "http-header"] =
      .ok (.encode .standard .standard .httpHeader false false) := rfl
  have hdecode' : Request.parse ["decode", "-a", "http-header"] =
      .ok (.decode .standard .standard .httpHeader false) := rfl
  have hescape : Request.parse ["escape"] = .ok (.escape .standard) := rfl
  have hunescape : Request.parse ["unescape"] = .ok (.unescape .standard) := rfl
  have hgives : (Invocation.onStdin (Utf8.encode "\u3000~eT \r\n".toList)
      ["decode", "-a", "http-header"]).Gives [5] .standard :=
    ⟨by decide +kernel, by decide +kernel, rfl⟩
  obtain ⟨hwrite, hread⟩ := two_runs_agree_with_one
  refine ⟨?_, hgives, ?_⟩
  · exact (hwrite (Invocation.asks_onStdin hencode rfl rfl _)
      (Invocation.asks_onStdin hescape rfl rfl _) (Invocation.asks_onStdin hencode' rfl rfl _)).2
  · exact ((hread (Invocation.asks_onStdin hunescape rfl rfl _)
      (Invocation.asks_onStdin hdecode rfl rfl _)
      (Invocation.asks_onStdin hdecode' rfl rfl _)).mp hgives).2

end TextKit.Command

import WheelForge.Python.Utf8

/-!
# Captured output

`_PipeCapture.retain` and `_bounded_bytes`: what is kept of the output of a process that arrives in
chunks, and its text. The capture is the beginning of the joined chunks (`capture_eq`), so that the
text depends on them alone; it never encodes to more than the limit, and where something was cut it
ends with the marker (`capturedText_spec`).
-/

set_option autoImplicit false

namespace WheelForge.Process

open WheelForge.Python

/-- `MAX_PROCESS_OUTPUT_BYTES`. -/
def maxProcessOutputBytes : Nat := 4096

/-- `PROCESS_OUTPUT_TRUNCATION_MARKER`. -/
def truncationMarker : Text := "\n...[truncated]...".toList

/-- `_PipeCapture`. -/
structure PipeCapture where
  retained : List UInt8
  truncated : Bool
deriving DecidableEq

/-- `_PipeCapture.retain`. -/
def PipeCapture.retain (capture : PipeCapture) (chunk : List UInt8) : PipeCapture :=
  let remaining : Int := (maxProcessOutputBytes : Int) - capture.retained.length
  { retained :=
      if remaining > 0 then capture.retained ++ chunk.take remaining.toNat else capture.retained
    truncated := if (chunk.length : Int) > remaining then true else capture.truncated }

/-- `_drain_pipe`: the chunks that were read, one after the other. -/
def drainPipe (chunks : List (List UInt8)) : PipeCapture :=
  chunks.foldl PipeCapture.retain ⟨[], false⟩

/-- `_bounded_bytes`. -/
def boundedBytes (value : List UInt8) (truncated : Bool) : Text :=
  let decoded := decodeReplace value
  let encoded := encodeUtf8 decoded
  if truncated = false ∧ encoded.length ≤ maxProcessOutputBytes then decoded
  else
    let contentLimit := maxProcessOutputBytes - (encodeUtf8 truncationMarker).length
    decodeIgnore (encoded.take contentLimit) ++ truncationMarker

/-- The captured text of an output. -/
def capturedText (chunks : List (List UInt8)) : Text :=
  boundedBytes (drainPipe chunks).retained (drainPipe chunks).truncated

/-- What a capture holds of the bytes that it has seen. -/
def captureOf (seen : List UInt8) : PipeCapture :=
  ⟨seen.take maxProcessOutputBytes, decide (maxProcessOutputBytes < seen.length)⟩

/-- One chunk more. -/
theorem retain_captureOf (seen chunk : List UInt8) :
    (captureOf seen).retain chunk = captureOf (seen ++ chunk) := by
  unfold PipeCapture.retain captureOf
  simp only [List.length_take, List.length_append, PipeCapture.mk.injEq]
  by_cases hfull : maxProcessOutputBytes ≤ seen.length
  · -- nothing more is kept, and the first further byte counts as cut
    have hmin : min maxProcessOutputBytes seen.length = maxProcessOutputBytes := min_eq_left hfull
    rw [hmin, Int.sub_self, if_neg (by omega), List.take_append_of_le_length hfull]
    refine ⟨rfl, ?_⟩
    split
    · next hchunk => simp; omega
    · next hchunk =>
        have hnil : chunk.length = 0 := by omega
        rw [hnil, Nat.add_zero]
  · have hmin : min maxProcessOutputBytes seen.length = seen.length := min_eq_right (by omega)
    have hremaining : ((maxProcessOutputBytes : Int) - seen.length).toNat =
        maxProcessOutputBytes - seen.length := by omega
    rw [hmin, if_pos (by omega), hremaining, List.take_append,
      List.take_of_length_le (l := seen) (by omega)]
    refine ⟨rfl, ?_⟩
    split
    · next hchunk => simp; omega
    · next hchunk => simp; omega

/-- The capture is the beginning of the joined chunks. -/
theorem drainPipe_eq (chunks : List (List UInt8)) : drainPipe chunks = captureOf chunks.flatten := by
  have hfrom : ∀ seen, chunks.foldl PipeCapture.retain (captureOf seen) =
      captureOf (seen ++ chunks.flatten) := by
    induction chunks with
    | nil =>
        intro seen
        rw [List.flatten_nil, List.append_nil]
        rfl
    | cons chunk chunks ih =>
        intro seen
        rw [List.foldl_cons, retain_captureOf, ih, List.flatten_cons, List.append_assoc]
  exact hfrom []

/-- The output, or its decoded form, is longer than the limit. -/
def Exceeds (output : List UInt8) : Prop :=
  maxProcessOutputBytes < output.length ∨
    maxProcessOutputBytes < (encodeUtf8 (decodeReplace output)).length

theorem capturedText_of_exceeds {chunks : List (List UInt8)} (h : Exceeds chunks.flatten) :
    ∃ content, (encodeUtf8 content).length + (encodeUtf8 truncationMarker).length ≤
        maxProcessOutputBytes ∧
      capturedText chunks = content ++ truncationMarker := by
  unfold capturedText boundedBytes
  rw [drainPipe_eq]
  dsimp only
  rw [if_neg]
  · refine ⟨_, ?_, rfl⟩
    have hdecoded := decodeIgnore_length ((encodeUtf8 (decodeReplace
      (captureOf chunks.flatten).retained)).take
        (maxProcessOutputBytes - (encodeUtf8 truncationMarker).length))
    have hmarker : (encodeUtf8 truncationMarker).length ≤ maxProcessOutputBytes := by
      decide +kernel
    rw [List.length_take] at hdecoded
    omega
  · rintro ⟨hkept, hencoded⟩
    have hshort : ¬maxProcessOutputBytes < chunks.flatten.length := of_decide_eq_false hkept
    rcases h with h | h
    · exact hshort h
    · unfold captureOf at hencoded
      dsimp only at hencoded
      rw [List.take_of_length_le (by omega)] at hencoded
      omega

theorem capturedText_of_not_exceeds {chunks : List (List UInt8)} (h : ¬Exceeds chunks.flatten) :
    capturedText chunks = decodeReplace chunks.flatten := by
  unfold Exceeds at h
  rw [not_or, Nat.not_lt, Nat.not_lt] at h
  unfold capturedText boundedBytes
  rw [drainPipe_eq]
  unfold captureOf
  dsimp only
  rw [List.take_of_length_le h.1]
  exact if_pos ⟨decide_eq_false (by omega), h.2⟩

/-- The output of a process that writes text is captured as it is, however it is split. -/
theorem capturedText_of_text {text : Text} {chunks : List (List UInt8)}
    (h : chunks.flatten = encodeUtf8 text) (hlength : (encodeUtf8 text).length ≤ 4096) :
    capturedText chunks = text := by
  have hshort : ¬Exceeds chunks.flatten := by
    rw [h]
    unfold Exceeds maxProcessOutputBytes
    rw [decodeReplace_encode]
    omega
  rw [capturedText_of_not_exceeds hshort, h, decodeReplace_encode]

/-- The text depends on the joined chunks only and encodes to the limit at most. It ends with the
marker if the output exceeded the limit, and is the decoded output otherwise. -/
theorem capturedText_spec (chunks : List (List UInt8)) :
    (∀ chunks' : List (List UInt8), chunks'.flatten = chunks.flatten →
      capturedText chunks' = capturedText chunks) ∧
    (encodeUtf8 (capturedText chunks)).length ≤ maxProcessOutputBytes ∧
    (Exceeds chunks.flatten → truncationMarker <:+ capturedText chunks) ∧
    (¬Exceeds chunks.flatten → capturedText chunks = decodeReplace chunks.flatten) := by
  refine ⟨?_, ?_, ?_, capturedText_of_not_exceeds⟩
  · intro chunks' hsame
    unfold capturedText
    rw [drainPipe_eq, drainPipe_eq, hsame]
  · by_cases h : Exceeds chunks.flatten
    · obtain ⟨content, hlength, htext⟩ := capturedText_of_exceeds h
      rw [htext, encodeUtf8_append, List.length_append]
      exact hlength
    · have hexceeds := h
      unfold Exceeds at hexceeds
      rw [capturedText_of_not_exceeds h]
      omega
  · intro h
    obtain ⟨content, -, htext⟩ := capturedText_of_exceeds h
    exact ⟨content, htext.symm⟩

/-- A short output that is the text of the marker keeps it. -/
theorem marker_output_kept :
    ¬Exceeds [encodeUtf8 truncationMarker].flatten ∧
      truncationMarker <:+ capturedText [encodeUtf8 truncationMarker] := by
  have hshort : ¬Exceeds [encodeUtf8 truncationMarker].flatten := by
    rw [List.flatten_singleton]
    unfold Exceeds
    rw [decodeReplace_encode]
    decide +kernel
  refine ⟨hshort, ?_⟩
  rw [capturedText_of_not_exceeds hshort, List.flatten_singleton, decodeReplace_encode]

end WheelForge.Process

import Dnfast.Data.Bytes
import Dnfast.State.Model

/-! # The event log

`dnfast-state`, `log.rs`. The log is filled up to a limit, and what does not fit is cut off and a marker
written at the end. What it holds depends on what was appended, and not on how that was split. -/

namespace Dnfast.State

def maxLogBytes : Nat := 64 * 1024 * 1024

def marker : List UInt8 := "\n[dnfast: log truncated at 67108864 bytes]\n".asBytes

inductive LogAppend where
  | written
  | truncated
  deriving DecidableEq, Repr

/-! ## Files -/

/-- `set_len`. -/
def setLen (content : List UInt8) (n : Nat) : List UInt8 :=
  content.take n ++ List.replicate (n - content.length) 0

/-- `write_all` at an offset. -/
def writeAt (content : List UInt8) (offset : Nat) (bytes : List UInt8) : List UInt8 :=
  setLen content offset ++ bytes ++ content.drop (offset + bytes.length)

/-- `read_exact` at an offset. -/
def readExactAt (content : List UInt8) (offset n : Nat) : Except StateError (List UInt8) :=
  if offset + n ≤ content.length then .ok ((content.drop offset).take n)
  else .error (.io "failed to fill whole buffer")

/-! ## Appending -/

def payloadEnd : Nat := maxLogBytes - marker.length

/-- The log is full and ends with the marker. -/
def isMarked (content : List UInt8) : Except StateError Bool :=
  if content.length = maxLogBytes then do
    let tail ← readExactAt content payloadEnd marker.length
    return tail = marker
  else .ok false

/-- `append` to the content of the log. -/
def append (content bytes : List UInt8) : Except StateError (LogAppend × List UInt8) := do
  if content.length > maxLogBytes then .error (.corrupt "event log exceeds limit")
  else if ← isMarked content then return (.truncated, content)
  else if bytes.length ≤ maxLogBytes - content.length then
    return (.written, writeAt content content.length bytes)
  else do
    let start := min content.length payloadEnd
    let cut := if content.length > payloadEnd then setLen content payloadEnd else content
    let take := payloadEnd - start
    let filled := writeAt cut start (bytes.take (min take bytes.length))
    return (.truncated, writeAt filled payloadEnd marker)

/-- `append_event` with one chunk after another. -/
def appendAll (content : List UInt8) : List (List UInt8) → Except StateError (List UInt8)
  | [] => .ok content
  | bytes :: rest => do
    let (_, content) ← append content bytes
    appendAll content rest

/-- The log of everything that was appended. -/
def logOf (appended : List UInt8) : List UInt8 :=
  if appended.length ≤ maxLogBytes then appended else appended.take payloadEnd ++ marker

/-! ## What an append does -/

theorem marker_fits : payloadEnd + marker.length = maxLogBytes := by decide +kernel

theorem setLen_of_le {content : List UInt8} {n : Nat} (h : n ≤ content.length) :
    setLen content n = content.take n := by
  rw [setLen, Nat.sub_eq_zero_of_le h, List.replicate_zero, List.append_nil]

/-- At the end of the content a write appends. -/
theorem writeAt_length (content bytes : List UInt8) :
    writeAt content content.length bytes = content ++ bytes := by
  rw [writeAt, setLen_of_le (Nat.le_refl _), List.take_length,
    List.drop_eq_nil_of_le (Nat.le_add_right _ _), List.append_nil]

theorem length_logOf_le (appended : List UInt8) : (logOf appended).length ≤ maxLogBytes := by
  have hfits := marker_fits
  unfold logOf
  split
  · assumption
  · rw [List.length_append, List.length_take]
    omega

/-- A log that was truncated stays as it is. -/
theorem logOf_append {appended : List UInt8} (h : maxLogBytes < appended.length) (bytes : List UInt8) :
    logOf (appended ++ bytes) = logOf appended := by
  have hfits := marker_fits
  rw [logOf, logOf, if_neg (by rw [List.length_append]; omega), if_neg (by omega),
    List.take_append_of_le_length (by omega)]

theorem isMarked_logOf {appended : List UInt8} (h : maxLogBytes < appended.length) :
    isMarked (logOf appended) = .ok true := by
  have hfits := marker_fits
  have htake : (appended.take payloadEnd).length = payloadEnd := by
    rw [List.length_take]
    omega
  have hlog : logOf appended = appended.take payloadEnd ++ marker := by rw [logOf, if_neg (by omega)]
  have hlength : (appended.take payloadEnd ++ marker).length = maxLogBytes := by
    rw [List.length_append, htake, hfits]
  rw [hlog, isMarked, if_pos hlength, readExactAt, if_pos (by omega), List.drop_left' htake,
    List.take_length]
  simp [bind, Except.bind, pure, Except.pure]

theorem exists_isMarked (content : List UInt8) : ∃ marked, isMarked content = .ok marked := by
  have hfits := marker_fits
  unfold isMarked
  split
  · rw [readExactAt, if_pos (by omega)]
    exact ⟨_, rfl⟩
  · exact ⟨false, rfl⟩

/-- A full log with the marker is the log of itself and of whatever follows. -/
theorem logOf_append_of_isMarked {appended : List UInt8} (hmarked : isMarked appended = .ok true)
    (bytes : List UInt8) :
    logOf (appended ++ bytes) = appended := by
  have hfits := marker_fits
  rw [isMarked] at hmarked
  split at hmarked
  · next hfull =>
    rw [readExactAt, if_pos (by omega)] at hmarked
    simp only [bind, Except.bind, pure, Except.pure, Except.ok.injEq, decide_eq_true_eq] at hmarked
    rw [List.take_of_length_le (by rw [List.length_drop]; omega)] at hmarked
    rw [logOf]
    split
    · next hle =>
      rw [List.length_append] at hle
      have hnil : bytes = [] := List.eq_nil_of_length_eq_zero (by omega)
      rw [hnil, List.append_nil]
    · rw [List.take_append_of_le_length (by omega), ← hmarked, List.take_append_drop]
  · cases hmarked

/-- What does not fit is cut off. -/
theorem append_overflow {appended bytes : List UInt8} (h : appended.length ≤ maxLogBytes)
    (hover : maxLogBytes < (appended ++ bytes).length) :
    writeAt (writeAt
        (if appended.length > payloadEnd then setLen appended payloadEnd else appended)
        (min appended.length payloadEnd)
        (bytes.take (min (payloadEnd - min appended.length payloadEnd) bytes.length)))
      payloadEnd marker = logOf (appended ++ bytes) := by
  have hfits := marker_fits
  have hcut : (if appended.length > payloadEnd then setLen appended payloadEnd else appended) =
      appended.take payloadEnd := by
    split
    · exact setLen_of_le (by omega)
    · rw [List.take_of_length_le (by omega)]
  have hlength : (appended.take payloadEnd).length = min appended.length payloadEnd := by
    rw [List.length_take, Nat.min_comm]
  rw [List.length_append] at hover
  have hfilled : appended.take payloadEnd ++
      bytes.take (min (payloadEnd - min appended.length payloadEnd) bytes.length) =
        (appended ++ bytes).take payloadEnd := by
    rw [List.take_append]
    congr 2
    omega
  have hfull : ((appended ++ bytes).take payloadEnd).length = payloadEnd := by
    rw [List.length_take, List.length_append]
    omega
  rw [hcut, ← hlength, writeAt_length, hlength, hfilled]
  nth_rewrite 2 [← hfull]
  rw [writeAt_length, logOf, if_neg (by rw [List.length_append]; omega)]

/-- An append to the log of some bytes gives the log of these bytes and the new ones. -/
theorem append_logOf (appended bytes : List UInt8) :
    ∃ result, append (logOf appended) bytes = .ok (result, logOf (appended ++ bytes)) := by
  have hfits := marker_fits
  rw [append, if_neg (Nat.not_lt.mpr (length_logOf_le appended))]
  rcases Nat.lt_or_ge maxLogBytes appended.length with hfull | hfree
  · rw [isMarked_logOf hfull, logOf_append hfull]
    exact ⟨.truncated, rfl⟩
  · have hlog : logOf appended = appended := if_pos hfree
    obtain ⟨marked, hmarked⟩ := exists_isMarked appended
    rw [hlog, hmarked]
    cases marked with
    | true =>
      rw [logOf_append_of_isMarked hmarked]
      exact ⟨.truncated, rfl⟩
    | false =>
      simp only [bind, Except.bind, Bool.false_eq_true, if_false]
      split
      · next hroom =>
        have hall : (appended ++ bytes).length ≤ maxLogBytes := by
          rw [List.length_append]
          omega
        rw [writeAt_length, logOf, if_pos hall]
        exact ⟨.written, rfl⟩
      · next hroom =>
        rw [append_overflow hfree (by rw [List.length_append]; omega)]
        exact ⟨.truncated, rfl⟩

/-! ## Sequences of appends -/

/-- The log of a sequence of appends is the one of their concatenation. -/
theorem appendAll_logOf (appended : List UInt8) (chunks : List (List UInt8)) :
    appendAll (logOf appended) chunks = .ok (logOf (appended ++ chunks.flatten)) := by
  induction chunks generalizing appended with
  | nil => rw [List.flatten_nil, List.append_nil, appendAll]
  | cons bytes rest ih =>
    obtain ⟨result, hresult⟩ := append_logOf appended bytes
    rw [appendAll, hresult, List.flatten_cons, ← List.append_assoc, ← ih]
    rfl

/-- The log holds what was appended, up to the limit, however it was split. It is never longer than
the limit, and once it was truncated it stays as it is. -/
theorem event_log_of_chunks (chunks : List (List UInt8)) :
    appendAll [] chunks = .ok (logOf chunks.flatten) ∧
      (logOf chunks.flatten).length ≤ maxLogBytes ∧
      ∀ more : List (List UInt8), maxLogBytes < chunks.flatten.length →
        appendAll [] (chunks ++ more) = .ok (logOf chunks.flatten) := by
  have hempty : logOf [] = [] := if_pos (Nat.zero_le _)
  have hall : ∀ chunks, appendAll [] chunks = .ok (logOf chunks.flatten) := by
    intro chunks
    have h := appendAll_logOf [] chunks
    rwa [hempty, List.nil_append] at h
  refine ⟨hall chunks, length_logOf_le _, fun more hfull => ?_⟩
  rw [hall, List.flatten_append, logOf_append hfull]

end Dnfast.State

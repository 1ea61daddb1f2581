/-
  TerraformCloud/LogReader.lean
  =============================
  **Reading a log while it is written.**

  A log lives at a URL outside of the service and is fetched in pieces from a byte
  offset on.  A start marker may stand in front of it and an end marker behind it.  A
  piece may end inside a character; its bytes are held back until the rest arrives.
  An empty piece means that nothing was written since the last one, and then the
  owner of the log is asked whether more can come.

  What a piece does to the reader is a function of the reader and the bytes; the loop
  that polls, asks and waits is built on top of it and works over any source.
-/
import TerraformCloud.Service

namespace TerraformCloud

/-- The byte in front of a log. -/
def startMarker : UInt8 := 0x02

/-- The byte behind a log. -/
def endMarker : UInt8 := 0x03

/-- Where a reader stands in a log. -/
structure LogReader where
  /-- Bytes of the log received so far, markers included. -/
  offset : Nat
  /-- How long to wait after the next empty piece. -/
  backoff : Duration
  /-- Whether the end of the log was reached. -/
  finished : Bool
  /-- Bytes of a character whose end has not arrived. -/
  pending : Bytes
deriving DecidableEq, Repr

namespace LogReader

/-! ### What a piece does -/

/-- The wait after the first empty piece. -/
def firstBackoff : Duration := .ofMillis 500

/-- The longest wait after an empty piece. -/
def longestBackoff : Duration := .ofMillis 3000

/-- How many bytes are asked for at once. -/
def pieceSize : Nat := 65536

/-- A reader that goes on from an offset. -/
def startingAt (offset : Nat) : LogReader := ⟨offset, firstBackoff, false, []⟩

def start : LogReader := startingAt 0

/-- A text, unless it is empty. -/
def nonempty (s : String) : Option String := if s.isEmpty then none else some s

/-- The text of bytes, with each ill-formed part replaced. -/
def lossy (bytes : Bytes) : String := String.ofList (Utf8.decodeLossy bytes)

/-- What a piece holds of the text, without the marker in front of the whole log. -/
def unframed (r : LogReader) (raw : Bytes) : Bytes :=
  if r.offset = 0 ∧ raw.head? = some startMarker then raw.drop 1 else raw

/-- Takes in a nonempty piece: the text that can be shown now, and the reader behind
    it.  The end marker ends the log, and what follows it does not count. -/
def absorb (r : LogReader) (raw : Bytes) : String × LogReader :=
  let body := r.unframed raw
  let text := body.takeWhile (fun b => b ≠ endMarker)
  let bytes := r.pending ++ text
  let offset := r.offset + raw.length
  if text.length < body.length then
    (lossy bytes, { r with offset, backoff := firstBackoff, finished := true, pending := [] })
  else
    let tail := Utf8.incompleteTail bytes
    (lossy (bytes.take (bytes.length - tail.length)),
      { r with offset, backoff := firstBackoff, pending := tail })

/-- Ends the log where it stands; a character that was cut off is replaced. -/
def finish (r : LogReader) : String × LogReader :=
  (lossy r.pending, { r with finished := true, pending := [] })

/-- The wait after an empty piece, and the reader that will wait twice as long. -/
def idle (r : LogReader) : Duration × LogReader :=
  (r.backoff, { r with backoff := Duration.min (r.backoff.scale 2) longestBackoff })

/-! ### Polling -/

/-- A log as a reader sees it, over a state `σ`. -/
structure Source (σ : Type) where
  /-- The bytes from an offset on, none when nothing was written since. -/
  poll : Nat → σ → Result σ Bytes
  /-- Whether the owner of the log writes no more. -/
  done : σ → Result σ Bool
  /-- Waits; says whether the wait was interrupted. -/
  wait : Duration → σ → Bool × σ

variable {σ : Type}

/-- The next piece of text, none at the end of the log.  At most `fuel` pieces are
    polled; nothing is returned when all of them brought no text. -/
def next (source : Source σ) : Nat → LogReader → σ →
    Option (Except ApiError (Option String)) × LogReader × σ
  | 0, r, s => (none, r, s)
  | fuel + 1, r, s =>
    if r.finished then (some (.ok none), r, s)
    else
      match source.poll r.offset s with
      | (.error e, s) => (some (.error e), r, s)
      | (.ok [], s) =>
        match source.done s with
        | (.error e, s) => (some (.error e), r, s)
        | (.ok true, s) =>
          let (rest, r) := r.finish
          (some (.ok (nonempty rest)), r, s)
        | (.ok false, s) =>
          let (delay, r) := r.idle
          match source.wait delay s with
          | (true, s) => (some (.error .cancelled), r, s)
          | (false, s) => next source fuel r s
      | (.ok (b :: raw), s) =>
        let (text, r) := r.absorb (b :: raw)
        match nonempty text with
        | some text => (some (.ok (some text)), r, s)
        | none => next source fuel r s

def readAll (source : Source σ) (fuel : Nat) : Nat → LogReader → σ →
    Option (Except ApiError String) × LogReader × σ
  | 0, r, s => (none, r, s)
  | pieces + 1, r, s =>
    match next source fuel r s with
    | (none, r, s) => (none, r, s)
    | (some (.error e), r, s) => (some (.error e), r, s)
    | (some (.ok none), r, s) => (some (.ok ""), r, s)
    | (some (.ok (some text)), r, s) =>
      match readAll source fuel pieces r s with
      | (some (.ok rest), r, s) => (some (.ok (text ++ rest)), r, s)
      | other => other

/-- At most so many pieces of the text, each with the reader behind it. -/
def readSome (source : Source σ) (fuel : Nat) : Nat → LogReader → σ →
    Option (Except ApiError (List (String × LogReader))) × LogReader × σ
  | 0, r, s => (some (.ok []), r, s)
  | pieces + 1, r, s =>
    match next source fuel r s with
    | (none, r, s) => (none, r, s)
    | (some (.error e), r, s) => (some (.error e), r, s)
    | (some (.ok none), r, s) => (some (.ok []), r, s)
    | (some (.ok (some text)), here, s) =>
      match readSome source fuel pieces here s with
      | (some (.ok rest), r, s) => (some (.ok ((text, here) :: rest)), r, s)
      | other => other

/-! ### Logs of the service -/

/-- Where the piece from an offset on is fetched. -/
def pieceUrl (url : Url) (offset : Nat) : Url :=
  (url.addPair "limit" (toString pieceSize)).addPair "offset" (toString offset)

/-- Fetches a piece of a log, without the caller's secret. -/
def fetchPiece (link : Link σ) (c : Client) (url : Url) (offset : Nat) (s : σ) : Result σ Bytes :=
  link.fetch c (Client.outside (pieceUrl url offset)) bodyOf s

/-- The log at a URL, whose owner answers `done`. -/
def source (link : Link σ) (c : Client) (url : Url) (done : σ → Result σ Bool) : Source σ :=
  { poll := fetchPiece link c url, done, wait := link.wait }

/-- The URL of a log, if there is a log. -/
def logUrl : Option String → Except ApiError Url
  | none => .error .logUrlUnavailable
  | some raw =>
    if raw.isEmpty then .error .logUrlUnavailable
    else
      match Url.parse raw with
      | .ok url => .ok url
      | .error e => .error (.invalidUrl e)

/-- Reads where a plan or an apply stands, and where its log is. -/
def readPhase (link : Link σ) (c : Client) (phase : Phase) (id : String) (s : σ) :
    Result σ (PhaseStatus × Option String) :=
  match (Operation.phase phase id).perform link c s with
  | (.error e, s) => (.error e, s)
  | (.ok r, s) => (.ok (phase.statusAndLog r.attributes), s)

/-- Opens the log of a plan or an apply.  Its owner is asked by reading it again. -/
def openLog (link : Link σ) (c : Client) (phase : Phase) (id : String) (s : σ) :
    Result σ (Url × Source σ) :=
  match readPhase link c phase id s with
  | (.error e, s) => (.error e, s)
  | (.ok (_, raw), s) =>
    match logUrl raw with
    | .error e => (.error e, s)
    | .ok url =>
      let done (s : σ) : Result σ Bool :=
        match readPhase link c phase id s with
        | (.error e, s) => (.error e, s)
        | (.ok (status, _), s) => (.ok status.isFinal, s)
      (.ok (url, source link c url done), s)

def summary (url : Url) (r : LogReader) : String :=
  shownPart "LogReader"
    [("url", shownText url.text), ("offset", toString r.offset), ("finished", shownFlag r.finished)]

end LogReader
end TerraformCloud

/-
  TerraformCloud/Text/Utf8.lean
  =============================
  **UTF-8 over lists of bytes, one character at a time.**

  Everything the service sends arrives as bytes, and logs arrive in pieces cut at
  any byte.  So the reader of characters distinguishes three ways a byte list can
  begin: with a whole character, with bytes that no continuation could repair, and
  with the start of a character that the list ends inside of.  From this one
  function come strict decoding, lossy decoding (each ill-formed part becomes
  U+FFFD), and the tail that a reader of pieces has to hold back.
-/

namespace TerraformCloud

/-- Raw bytes, as they travel. -/
abbrev Bytes := List UInt8

namespace Utf8

/-! ### Reading one character -/

/-- How a nonempty byte list begins. -/
inductive Piece where
  /-- A well-formed character. -/
  | char (c : Char)
  /-- An ill-formed part: the longest run of bytes that starts a character and is
      then broken off by a byte that cannot follow, or a single byte that starts none. -/
  | broken
  /-- The list ends inside a character that is well formed so far. -/
  | cut
deriving DecidableEq, Repr

/-- Bytes `80`–`BF` continue a character. -/
def isContinuation (b : UInt8) : Bool := 0x80 ≤ b && b ≤ 0xBF

/-- The second byte allowed after a lead byte: narrower after `E0` and `F0`, where
    the form would be overlong, after `ED`, where it would be a surrogate, and after
    `F4`, where it would lie past the last code point. -/
def isSecond (lead b : UInt8) : Bool :=
  if lead = 0xE0 then 0xA0 ≤ b && b ≤ 0xBF
  else if lead = 0xED then 0x80 ≤ b && b ≤ 0x9F
  else if lead = 0xF0 then 0x90 ≤ b && b ≤ 0xBF
  else if lead = 0xF4 then 0x80 ≤ b && b ≤ 0x8F
  else isContinuation b

/-- The code point that a lead value and continuation bytes spell. -/
def codePoint (lead : Nat) (rest : Bytes) : Char :=
  Char.ofNat (rest.foldl (fun n b => n * 64 + (b.toNat - 0x80)) lead)

/-- Reads the first character of `b :: rest` and gives what lies behind it.  An
    ill-formed part ends before the first byte that could not follow, so that byte
    is read again. -/
def next (b : UInt8) (rest : Bytes) : Piece × Bytes :=
  if b < 0x80 then (.char (Char.ofNat b.toNat), rest)
  else if 0xC2 ≤ b && b ≤ 0xDF then
    match rest with
    | [] => (.cut, [])
    | c :: r => if isContinuation c then (.char (codePoint (b.toNat - 0xC0) [c]), r) else (.broken, rest)
  else if 0xE0 ≤ b && b ≤ 0xEF then
    match rest with
    | [] => (.cut, [])
    | c :: r =>
      if isSecond b c then
        match r with
        | [] => (.cut, [])
        | d :: r' =>
          if isContinuation d then (.char (codePoint (b.toNat - 0xE0) [c, d]), r') else (.broken, r)
      else (.broken, rest)
  else if 0xF0 ≤ b && b ≤ 0xF4 then
    match rest with
    | [] => (.cut, [])
    | c :: r =>
      if isSecond b c then
        match r with
        | [] => (.cut, [])
        | d :: r' =>
          if isContinuation d then
            match r' with
            | [] => (.cut, [])
            | e :: r'' =>
              if isContinuation e then (.char (codePoint (b.toNat - 0xF0) [c, d, e]), r'')
              else (.broken, r')
          else (.broken, r)
      else (.broken, rest)
  else (.broken, rest)

/-- Reading a character never lengthens what is left. -/
theorem next_length_le (b : UInt8) (rest : Bytes) : (next b rest).2.length ≤ rest.length := by
  unfold next
  repeat' split
  all_goals simp_all
  all_goals omega

/-! ### Decoding -/

/-- Decodes every byte list: an ill-formed part, or a character cut off by the end,
    reads as one U+FFFD. -/
def decodeLossy : Bytes → List Char
  | [] => []
  | b :: rest =>
    match _h : next b rest with
    | (.char c, r) => c :: decodeLossy r
    | (_, r) => '\uFFFD' :: decodeLossy r
termination_by bytes => bytes.length
decreasing_by
  all_goals
    have h := next_length_le b rest
    rw [_h] at h
    exact Nat.lt_succ_of_le h

/-- Decodes well-formed bytes only. -/
def decodeChars? : Bytes → Option (List Char)
  | [] => some []
  | b :: rest =>
    match _h : next b rest with
    | (.char c, r) => (decodeChars? r).map (c :: ·)
    | _ => none
termination_by bytes => bytes.length
decreasing_by
  have h := next_length_le b rest
  rw [_h] at h
  exact Nat.lt_succ_of_le h

/-- The text that well-formed bytes spell. -/
def decode? (bytes : Bytes) : Option String := (decodeChars? bytes).map String.ofList

/-- The part to hold back when more bytes may follow: the start of a character at
    the very end, provided everything before it is well formed.  With an ill-formed
    part in front of it nothing is held back. -/
def incompleteTail : Bytes → Bytes
  | [] => []
  | b :: rest =>
    match _h : next b rest with
    | (.char _, r) => incompleteTail r
    | (.broken, _) => []
    | (.cut, _) => b :: rest
termination_by bytes => bytes.length
decreasing_by
  have h := next_length_le b rest
  rw [_h] at h
  exact Nat.lt_succ_of_le h

/-! ### Encoding -/

def encode (s : String) : Bytes := s.toList.flatMap String.utf8EncodeChar

end Utf8
end TerraformCloud

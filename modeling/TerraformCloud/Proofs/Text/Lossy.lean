/-
  TerraformCloud/Proofs/Text/Lossy.lean
  =====================================
  **Lossy decoding of bytes that arrive in pieces.**

  Arbitrary bytes, cut anywhere.  Whether the two parts of `x ++ y` can be decoded one
  by one depends on the end of `x` alone: if `x` ends inside a character, the bytes of
  `y` that go on with it (`overhang x y` of them) are read as part of that character in
  `x ++ y`, and as so many ill-formed bytes in `y`.  So decoding the parts gives exactly
  `overhang x y` characters more than decoding the whole (`length_decodeLossy_append`),
  and the same characters when there is no overhang (`decodeLossy_append`).

  A reader of pieces holds back the start of a character (`incompleteTail_started`), but
  only if nothing in front of it is ill formed.  What it shows of pieces (`decodePieces`) is
  therefore the decoding of the whole exactly if no piece is torn off (`decodePieces_eq_iff`).
-/
import TerraformCloud.Proofs.Text.Characters

namespace TerraformCloud.Utf8

/-! ## 1. One part, cut -/

def Piece.shown : Piece → Char
  | .char c => c
  | _ => '\uFFFD'

theorem follow_append {spell : Bytes → Char} {tests : List (UInt8 → Bool)} {read rest : Bytes}
    (y : Bytes) (h : (follow spell tests read rest).1 ≠ .cut) :
    follow spell tests read (rest ++ y) =
      ((follow spell tests read rest).1, (follow spell tests read rest).2 ++ y) := by
  induction tests generalizing read rest with
  | nil => rfl
  | cons test tests ih =>
    cases rest with
    | nil => exact absurd rfl h
    | cons c rest =>
      simp only [follow, List.cons_append] at h ⊢
      split
      · next hc =>
        rw [if_pos hc] at h
        exact ih h
      · rfl

/-- What reading takes off the front consists of continuation bytes; where it takes
    nothing off and yet needs a byte, there is no character. -/
theorem follow_takes (spell : Bytes → Char) {tests : List (UInt8 → Bool)}
    (htests : ∀ test ∈ tests, ∀ c, test c = true → isContinuation c = true) (read y : Bytes) :
    ∃ q r, y = q ++ r ∧ (∀ c ∈ q, isContinuation c = true) ∧
      (follow spell tests read y).2 = r ∧
      (tests ≠ [] → q = [] → (follow spell tests read y).1.shown = '\uFFFD') := by
  induction tests generalizing read y with
  | nil => exact ⟨[], y, rfl, by simp, rfl, fun h => absurd rfl h⟩
  | cons test tests ih =>
    cases y with
    | nil => exact ⟨[], [], rfl, by simp, rfl, fun _ _ => rfl⟩
    | cons c y =>
      simp only [follow]
      split
      · next hc =>
        obtain ⟨q, r, rfl, hq, hr, -⟩ :=
          ih (fun t ht => htests t (List.mem_cons_of_mem _ ht)) (read ++ [c]) y
        refine ⟨c :: q, r, rfl, ?_, hr, fun _ h => absurd h (List.cons_ne_nil _ _)⟩
        rintro d hd
        rcases List.mem_cons.1 hd with rfl | hd
        · exact htests test List.mem_cons_self d hc
        · exact hq d hd
      · exact ⟨[], c :: y, rfl, by simp, rfl, fun _ _ => rfl⟩

theorem follow_takes_of_cut {spell : Bytes → Char} {tests : List (UInt8 → Bool)}
    (htests : ∀ test ∈ tests, ∀ c, test c = true → isContinuation c = true) {read t : Bytes}
    (y : Bytes) (h : (follow spell tests read t).1 = .cut) :
    ∃ q r, y = q ++ r ∧ (∀ c ∈ q, isContinuation c = true) ∧
      (follow spell tests read (t ++ y)).2 = r ∧
      (q = [] → (follow spell tests read (t ++ y)).1.shown = '\uFFFD') := by
  induction tests generalizing read t with
  | nil => cases h
  | cons test tests ih =>
    cases t with
    | nil =>
      obtain ⟨q, r, hy, hq, hr, hnone⟩ := follow_takes spell htests read y
      exact ⟨q, r, hy, hq, hr, hnone (List.cons_ne_nil _ _)⟩
    | cons c t =>
      simp only [follow, List.cons_append] at h ⊢
      split at h
      · next hc =>
        rw [if_pos hc]
        exact ih (fun t ht => htests t (List.mem_cons_of_mem _ ht)) h
      · cases h

theorem next_append {b : UInt8} {rest : Bytes} (y : Bytes) (h : (next b rest).1 ≠ .cut) :
    next b (rest ++ y) = ((next b rest).1, (next b rest).2 ++ y) := by
  rcases next_eq_follow b with hbroken | ⟨spell, tests, -, hfollow⟩
  · rw [hbroken, hbroken]
  · rw [hfollow] at h
    rw [hfollow, hfollow, follow_append y h]

theorem next_of_cut {b : UInt8} {t : Bytes} (y : Bytes) (h : (next b t).1 = .cut) :
    ∃ q r, y = q ++ r ∧ (∀ c ∈ q, isContinuation c = true) ∧ (next b (t ++ y)).2 = r ∧
      (q = [] → (next b (t ++ y)).1.shown = '\uFFFD') := by
  rcases next_eq_follow b with hbroken | ⟨spell, tests, htests, hfollow⟩
  · rw [hbroken] at h
    cases h
  · rw [hfollow] at h ⊢
    exact follow_takes_of_cut htests y h

theorem next_rest_of_cut {b : UInt8} {t : Bytes} (h : (next b t).1 = .cut) :
    (next b t).2 = [] := by
  obtain ⟨q, r, hnil, -, hr, -⟩ := next_of_cut [] h
  rw [List.append_nil] at hr
  rw [hr]
  exact (List.append_eq_nil_iff.1 hnil.symm).2

/-! ## 2. Two parts -/

theorem decodeLossy_cons (b : UInt8) (rest : Bytes) :
    decodeLossy (b :: rest) = (next b rest).1.shown :: decodeLossy (next b rest).2 := by
  rw [decodeLossy]
  split
  · next h => rw [h]; rfl
  · next hne h =>
    rw [h]
    cases hpiece : (next b rest).1 with
    | char c => rw [h] at hpiece; exact absurd hpiece (hne c)
    | broken => rw [h] at hpiece; subst hpiece; rfl
    | cut => rw [h] at hpiece; subst hpiece; rfl

theorem next_of_isContinuation {c : UInt8} (h : isContinuation c = true) (rest : Bytes) :
    next c rest = (.broken, rest) := by
  rw [isContinuation_iff] at h
  have h1 : ¬ c < 0x80 := not_ascii h.1
  have hlead : ∀ lo hi : UInt8, 0xBF < lo.toNat →
      ¬ (decide (lo ≤ c) && decide (c ≤ hi)) = true := by
    intro lo hi hlo hc
    have hle := (lead_within lo hi).1 hc
    omega
  rw [next.eq_def, if_neg h1, if_neg (hlead _ _ (by decide)), if_neg (hlead _ _ (by decide)),
    if_neg (hlead _ _ (by decide))]

theorem decodeLossy_continuations {q : Bytes} (hq : ∀ c ∈ q, isContinuation c = true)
    (r : Bytes) : decodeLossy (q ++ r) = List.replicate q.length '\uFFFD' ++ decodeLossy r := by
  induction q with
  | nil => rfl
  | cons c q ih =>
    rw [List.cons_append, decodeLossy_cons, next_of_isContinuation (hq c List.mem_cons_self),
      ih fun d hd => hq d (List.mem_cons_of_mem _ hd)]
    rfl

/-- The start of a character that bytes end inside of, whatever stands in front of it. -/
def openTail : Bytes → Bytes
  | [] => []
  | b :: rest =>
    match _h : next b rest with
    | (.cut, _) => b :: rest
    | (_, r) => openTail r
termination_by bytes => bytes.length
decreasing_by
  have h := next_length_le b rest
  rw [_h] at h
  exact Nat.lt_succ_of_le h

theorem openTail_of_cut {b : UInt8} {rest : Bytes} (h : (next b rest).1 = .cut) :
    openTail (b :: rest) = b :: rest := by
  rw [openTail]
  split
  · rfl
  · next hne h' =>
    rw [h'] at h
    exact absurd h hne

theorem openTail_of_not_cut {b : UInt8} {rest : Bytes} (h : (next b rest).1 ≠ .cut) :
    openTail (b :: rest) = openTail (next b rest).2 := by
  rw [openTail]
  split
  · next h' =>
    rw [h'] at h
    exact absurd rfl h
  · next h' => rw [h']

/-- How many bytes of `y` belong to the character that `x` ends inside of. -/
def overhang (x y : Bytes) : Nat :=
  match openTail x with
  | [] => 0
  | b :: t => y.length - (next b (t ++ y)).2.length

/-- Bytes that end inside a character, and nothing else. -/
theorem decodeLossy_append_of_cut {b : UInt8} {t : Bytes} (y : Bytes)
    (h : (next b t).1 = .cut) :
    ∃ c q r, y = q ++ r ∧ q.length = overhang (b :: t) y ∧
      decodeLossy (b :: t ++ y) = c :: decodeLossy r ∧
      decodeLossy (b :: t) ++ decodeLossy y =
        '\uFFFD' :: (List.replicate q.length '\uFFFD' ++ decodeLossy r) ∧
      (q = [] → c = '\uFFFD') := by
  obtain ⟨q, r, rfl, hq, hr, hnone⟩ := next_of_cut y h
  refine ⟨(next b (t ++ (q ++ r))).1.shown, q, r, rfl, ?_, ?_, ?_, hnone⟩
  · rw [overhang, openTail_of_cut h]
    simp only [hr, List.length_append, Nat.add_sub_cancel]
  · rw [List.cons_append, decodeLossy_cons, hr]
  · rw [decodeLossy_cons, h, next_rest_of_cut h, decodeLossy_continuations hq, decodeLossy]
    rfl

/-- **How decoding two parts differs from decoding the whole.** -/
theorem length_decodeLossy_append (x y : Bytes) :
    (decodeLossy x ++ decodeLossy y).length = (decodeLossy (x ++ y)).length + overhang x y := by
  induction x using openTail.induct with
  | case1 => simp [decodeLossy, overhang, openTail]
  | case2 b t r hnext =>
    have hcut : (next b t).1 = .cut := by rw [hnext]
    obtain ⟨c, q, r, -, hq, hwhole, hparts, -⟩ := decodeLossy_append_of_cut y hcut
    rw [hwhole, hparts, ← hq]
    simp only [List.length_cons, List.length_append, List.length_replicate]
    omega
  | case3 b rest p r hne hnext ih =>
    have hcomplete : (next b rest).1 ≠ .cut := by rw [hnext]; exact hne
    rw [List.cons_append, decodeLossy_cons, decodeLossy_cons, next_append y hcomplete, overhang,
      openTail_of_not_cut hcomplete, hnext]
    rw [overhang] at ih
    simp only [List.cons_append, List.length_cons, ih]
    omega

theorem decodeLossy_append {x y : Bytes} (h : overhang x y = 0) :
    decodeLossy (x ++ y) = decodeLossy x ++ decodeLossy y := by
  induction x using openTail.induct with
  | case1 => rw [decodeLossy]; rfl
  | case2 b t r hnext =>
    have hcut : (next b t).1 = .cut := by rw [hnext]
    obtain ⟨c, q, r, -, hq, hwhole, hparts, hc⟩ := decodeLossy_append_of_cut y hcut
    obtain rfl : q = [] := List.length_eq_zero_iff.1 (hq.trans h)
    rw [hwhole, hparts, hc rfl]
    rfl
  | case3 b rest p r hne hnext ih =>
    have hcomplete : (next b rest).1 ≠ .cut := by rw [hnext]; exact hne
    rw [overhang, openTail_of_not_cut hcomplete, hnext] at h
    rw [List.cons_append, decodeLossy_cons, decodeLossy_cons, next_append y hcomplete, hnext,
      ih h, List.cons_append]

/-! ## 3. Pieces -/

theorem follow_char {spell : Bytes → Char} {tests : List (UInt8 → Bool)} {read rest r : Bytes}
    {c : Char} (h : follow spell tests read rest = (.char c, r)) :
    ∃ q, rest = q ++ r ∧ ∀ y, follow spell tests read (q ++ y) = (.char c, y) := by
  induction tests generalizing read rest with
  | nil =>
    cases h
    exact ⟨[], rfl, fun y => rfl⟩
  | cons test tests ih =>
    cases rest with
    | nil => cases h
    | cons d rest =>
      simp only [follow] at h
      split at h
      · next hd =>
        obtain ⟨q, rfl, hq⟩ := ih h
        refine ⟨d :: q, rfl, fun y => ?_⟩
        rw [List.cons_append, follow, if_pos hd, hq]
      · cases h

theorem next_char {b : UInt8} {rest r : Bytes} {c : Char} (h : next b rest = (.char c, r)) :
    ∃ q, rest = q ++ r ∧ ∀ y, next b (q ++ y) = (.char c, y) := by
  rcases next_eq_follow b with hbroken | ⟨spell, tests, -, hfollow⟩
  · rw [hbroken] at h
    cases h
  · rw [hfollow] at h
    obtain ⟨q, hrest, hq⟩ := follow_char h
    exact ⟨q, hrest, fun y => by rw [hfollow, hq]⟩

theorem incompleteTail_of_broken {b : UInt8} {rest r : Bytes} (h : next b rest = (.broken, r)) :
    incompleteTail (b :: rest) = [] := by
  rw [incompleteTail]
  split
  · next h' => rw [h] at h'; cases h'
  · rfl
  · next h' => rw [h] at h'; cases h'

/-- What can be shown of bytes while more may follow. -/
def completePart (bytes : Bytes) : Bytes := bytes.take (bytes.length - (incompleteTail bytes).length)

/-- The rest is held back, and then what is shown ends with a character. -/
theorem exists_complete (bytes : Bytes) :
    ∃ part, bytes = part ++ incompleteTail bytes ∧
      (incompleteTail bytes ≠ [] → openTail part = []) := by
  induction bytes using incompleteTail.induct with
  | case1 => exact ⟨[], by rw [incompleteTail]; rfl, fun _ => by rw [openTail]⟩
  | case2 b rest c r hnext ih =>
    obtain ⟨part, hpart, hclosed⟩ := ih
    obtain ⟨q, hrest, hq⟩ := next_char hnext
    rw [incompleteTail_of_char hnext]
    refine ⟨b :: (q ++ part), ?_, fun h => ?_⟩
    · rw [hrest, List.cons_append, List.append_assoc, ← hpart]
    · have hread := hq part
      rw [openTail_of_not_cut (by rw [hread]; exact Piece.noConfusion), hread]
      exact hclosed h
  | case3 b rest r hnext =>
    rw [incompleteTail_of_broken hnext]
    exact ⟨b :: rest, (List.append_nil _).symm, fun h => absurd rfl h⟩
  | case4 b rest r hnext =>
    rw [incompleteTail_of_cut hnext]
    exact ⟨[], rfl, fun _ => by rw [openTail]⟩

theorem completePart_spec (bytes : Bytes) :
    completePart bytes ++ incompleteTail bytes = bytes ∧
      (incompleteTail bytes ≠ [] → openTail (completePart bytes) = []) := by
  obtain ⟨part, hpart, hclosed⟩ := exists_complete bytes
  have hlength : bytes.length - (incompleteTail bytes).length = part.length := by
    have hsum := congrArg List.length hpart
    rw [List.length_append] at hsum
    omega
  have hcomplete : completePart bytes = part :=
    calc bytes.take (bytes.length - (incompleteTail bytes).length)
      _ = bytes.take part.length := by rw [hlength]
      _ = (part ++ incompleteTail bytes).take part.length := congrArg (List.take part.length) hpart
      _ = part := List.take_left
  rw [hcomplete]
  exact ⟨hpart.symm, hclosed⟩

/-- What a reader shows of pieces and, at the end, of the bytes that it still holds back. -/
def decodePieces : Bytes → List Bytes → List Char
  | held, [] => decodeLossy held
  | held, piece :: later =>
    decodeLossy (completePart (held ++ piece)) ++
      decodePieces (incompleteTail (held ++ piece)) later

/-- How many bytes are torn off: those that go on with a character which a piece ends
    inside of, when nothing of it is held back. -/
def tornOff : Bytes → List Bytes → Nat
  | _, [] => 0
  | held, piece :: later =>
    (if incompleteTail (held ++ piece) = [] then overhang (held ++ piece) later.flatten else 0) +
      tornOff (incompleteTail (held ++ piece)) later

/-- What is shown of the first piece, and the rest with what is held back in front. -/
theorem cut_behind_piece (held piece : Bytes) (later : List Bytes) :
    ∃ part rest, part = completePart (held ++ piece) ∧
      rest = incompleteTail (held ++ piece) ++ later.flatten ∧
      held ++ (piece :: later).flatten = part ++ rest ∧
      overhang part rest =
        if incompleteTail (held ++ piece) = [] then overhang (held ++ piece) later.flatten else 0 := by
  obtain ⟨hsplit, hclosed⟩ := completePart_spec (held ++ piece)
  refine ⟨_, _, rfl, rfl, ?_, ?_⟩
  · rw [List.flatten_cons, ← List.append_assoc, ← List.append_assoc, hsplit]
  · split
    · next hnone =>
      rw [hnone, List.append_nil] at hsplit
      rw [hsplit, hnone, List.nil_append]
    · next hsome => rw [overhang, hclosed hsome]

/-- **Every byte that is torn off shows as one character more.** -/
theorem length_decodePieces (held : Bytes) (pieces : List Bytes) :
    (decodePieces held pieces).length =
      (decodeLossy (held ++ pieces.flatten)).length + tornOff held pieces := by
  induction pieces generalizing held with
  | nil => rw [decodePieces, tornOff, List.flatten_nil, List.append_nil, Nat.add_zero]
  | cons piece later ih =>
    obtain ⟨part, rest, hpart, hrest, hwhole, hover⟩ := cut_behind_piece held piece later
    have hlength := length_decodeLossy_append part rest
    rw [hwhole, decodePieces, tornOff, List.length_append, ih, ← hpart, ← hrest, ← hover]
    rw [List.length_append] at hlength
    omega

theorem decodePieces_of_tornOff {held : Bytes} {pieces : List Bytes} (h : tornOff held pieces = 0) :
    decodePieces held pieces = decodeLossy (held ++ pieces.flatten) := by
  induction pieces generalizing held with
  | nil => rw [decodePieces, List.flatten_nil, List.append_nil]
  | cons piece later ih =>
    obtain ⟨part, rest, hpart, hrest, hwhole, hover⟩ := cut_behind_piece held piece later
    rw [tornOff, Nat.add_eq_zero_iff, ← hover] at h
    rw [hwhole, decodeLossy_append h.1, decodePieces, ih h.2, ← hpart, ← hrest]

/-- **Pieces show as the whole exactly if nothing is torn off.** -/
theorem decodePieces_eq_iff (held : Bytes) (pieces : List Bytes) :
    decodePieces held pieces = decodeLossy (held ++ pieces.flatten) ↔ tornOff held pieces = 0 := by
  constructor
  · intro h
    have hlength := length_decodePieces held pieces
    rw [h] at hlength
    omega
  · exact decodePieces_of_tornOff

/-! ## 4. A text that is cut -/

/-- What is held back is the start of a character. -/
theorem incompleteTail_started (bytes : Bytes) :
    incompleteTail bytes = [] ∨ Started (incompleteTail bytes) := by
  induction bytes using incompleteTail.induct with
  | case1 => left; rw [incompleteTail]
  | case2 b rest c r hnext ih => rwa [incompleteTail_of_char hnext]
  | case3 b rest r hnext => exact .inl (incompleteTail_of_broken hnext)
  | case4 b rest r hnext =>
    rw [incompleteTail_of_cut hnext]
    exact .inr (started_of_cut (by rw [hnext]))

theorem decodeLossy_incompleteTail (bytes : Bytes) :
    incompleteTail bytes = [] ∨ decodeLossy (incompleteTail bytes) = ['\uFFFD'] := by
  induction bytes using incompleteTail.induct with
  | case1 => left; rw [incompleteTail]
  | case2 b rest c r hnext ih =>
    rw [incompleteTail_of_char hnext]
    exact ih
  | case3 b rest r hnext => exact Or.inl (incompleteTail_of_broken hnext)
  | case4 b rest r hnext =>
    right
    have hcut : (next b rest).1 = .cut := by rw [hnext]
    rw [incompleteTail_of_cut hnext, decodeLossy_cons, hcut, next_rest_of_cut hcut, decodeLossy]
    rfl

/-- A beginning of a text reads as the whole only if it is the whole, unless the text has
    replacements of its own. -/
theorem eq_encodeChars_of_decodeLossy {p : Bytes} {cs : List Char} (h : p <+: encodeChars cs)
    (hread : decodeLossy p = cs) (hno : '\uFFFD' ∉ cs) : p = encodeChars cs := by
  obtain ⟨front, back, rfl, hp⟩ := split_of_prefix h
  rw [hp, decodeLossy_encodeChars_append] at hread
  have hback : decodeLossy (incompleteTail p) = back := List.append_cancel_left hread
  rcases decodeLossy_incompleteTail p with htail | htail
  · rw [htail, decodeLossy] at hback
    rw [hp, htail, ← hback, List.append_nil, List.append_nil]
  · -- what is cut reads as a replacement, which would be one of the text
    refine absurd (List.mem_append_right front ?_) hno
    rw [← hback, htail]
    exact List.mem_singleton_self _

theorem incompleteTail_incompleteTail (bytes : Bytes) :
    incompleteTail (incompleteTail bytes) = incompleteTail bytes := by
  induction bytes using incompleteTail.induct with
  | case1 => rw [incompleteTail, incompleteTail]
  | case2 b rest c r hnext ih => rw [incompleteTail_of_char hnext, ih]
  | case3 b rest r hnext => rw [incompleteTail_of_broken hnext, incompleteTail]
  | case4 b rest r hnext => rw [incompleteTail_of_cut hnext, incompleteTail_of_cut hnext]

theorem next_of_incompleteTail {b : UInt8} {t : Bytes} (h : incompleteTail (b :: t) = b :: t) :
    (next b t).1 = .cut := by
  rcases hnext : next b t with ⟨c | _ | _, r⟩
  · have hlength := congrArg List.length h
    have hle := congrArg List.length (completePart_spec r).1
    have hless : r.length ≤ t.length := by simpa [hnext] using next_length_le b t
    rw [incompleteTail_of_char hnext, List.length_cons] at hlength
    rw [List.length_append] at hle
    omega
  · rw [incompleteTail_of_broken hnext] at h
    cases h
  · rfl

/-- In a text, a continuation byte follows what is held back. -/
theorem continuation_of_held {p y : Bytes} {cs : List Char} (hp : p ≠ [])
    (held : incompleteTail p = p) (h : p ++ y = encodeChars cs) :
    ∃ c y', y = c :: y' ∧ isContinuation c = true := by
  obtain ⟨b, t, rfl⟩ := List.exists_cons_of_ne_nil hp
  cases cs with
  | nil => cases h
  | cons c cs =>
    have hcut := next_of_incompleteTail held
    obtain ⟨b', bs, hbytes, hnext⟩ := (spells_encodeChar c).whole
    rw [encodeChars_cons, hbytes, List.cons_append, List.cons_append] at h
    obtain ⟨rfl, htail⟩ := List.cons.inj h
    obtain ⟨q, r, rfl, hq, hr, -⟩ := next_of_cut y hcut
    rw [htail, hnext] at hr
    cases q with
    | nil =>
      -- then the character was whole already
      rw [List.nil_append, ← hr] at htail
      rw [List.append_cancel_right htail, ← List.append_nil bs, hnext] at hcut
      cases hcut
    | cons d q => exact ⟨d, q ++ r, rfl, hq d List.mem_cons_self⟩

/-! ## 5. What was sent -/

theorem next_suffix (b : UInt8) (rest : Bytes) : (next b rest).2 <:+ rest := by
  rcases next_eq_follow b with hbroken | ⟨spell, tests, htests, hfollow⟩
  · simp [hbroken]
  · obtain ⟨q, r, hrest, -, hr, -⟩ := follow_takes spell htests [] rest
    rw [hfollow, hr, hrest]
    exact List.suffix_append _ _

/-- Each character that is shown was sent, or it stands for what is ill formed. -/
theorem mem_decodeLossy {bytes : Bytes} {c : Char} (h : c ∈ decodeLossy bytes) :
    c = '\uFFFD' ∨ String.utf8EncodeChar c <:+: bytes := by
  induction bytes using decodeLossy.induct with
  | case1 =>
    rw [decodeLossy] at h
    cases h
  | case2 b rest d r hnext ih =>
    rw [decodeLossy_of_char hnext] at h
    rw [next_char_encodes hnext]
    rcases List.mem_cons.1 h with rfl | hlater
    · exact .inr (List.prefix_append _ _).isInfix
    · exact (ih hlater).imp_right fun hinfix => hinfix.trans (List.suffix_append _ _).isInfix
  | case3 b rest piece r hne hnext ih =>
    have hsuffix : r <:+ b :: rest := by
      have hrest := next_suffix b rest
      rw [hnext] at hrest
      exact hrest.trans (List.suffix_cons _ _)
    have hshown : (next b rest).1.shown = '\uFFFD' := by
      rw [hnext]
      cases piece with
      | char d => exact absurd rfl (hne d)
      | broken => rfl
      | cut => rfl
    rw [decodeLossy_cons, hshown, hnext] at h
    rcases List.mem_cons.1 h with rfl | hlater
    · exact .inl rfl
    · exact (ih hlater).imp_right fun hinfix => hinfix.trans hsuffix.isInfix

end TerraformCloud.Utf8

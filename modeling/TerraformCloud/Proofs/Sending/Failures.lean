/-
  TerraformCloud/Proofs/Sending/Failures.lean
  ===========================================
  **What a failed response turns into.**

  A failed response becomes one error, which keeps the status.  Three statuses have errors
  of their own; every other error is in the words of the service, or of the status line
  where the service says nothing (`failure_translated`).

  `IsErrorDocument` says which documents report errors and which entries they hold, and
  the reader finds exactly these (`ofBytes?_eq_some_iff`).  Whether an entry blames the
  `include` parameter is asked of its whole text, and still comes down to its title or its
  detail, because what is looked for has no line break (`infix_said_iff`).
-/
import TerraformCloud.Client.Send
import TerraformCloud.Proofs.JsonApi.Lists
import TerraformCloud.Proofs.Lists
import TerraformCloud.Proofs.Query.Canonical

namespace TerraformCloud

open Json (Written)

namespace ErrorEntry

/-! ## 1. Reports of errors -/

/-- The title of an entry; without one it is empty. -/
inductive IsTitle : Option Written → String → Prop where
  | missing : IsTitle none ""
  | text (s : String) : IsTitle (some (.string (some s))) s

inductive IsDetail : Option Written → Option String → Prop where
  | missing : IsDetail none none
  | null : IsDetail (some .null) none
  | text (s : String) : IsDetail (some (.string (some s))) (some s)

inductive IsEntry (w : Written) : ErrorEntry → Prop where
  | fields {title detail : Option Written} {t : String} {d : Option String}
      (found : Schema.slots? ["title", "detail"] w = some [title, detail])
      (has_title : IsTitle title t) (has_detail : IsDetail detail d) : IsEntry w ⟨t, d⟩

/-- A document without the list has no entries; anything else in its place is no list. -/
inductive IsErrors : Option Written → List ErrorEntry → Prop where
  | missing : IsErrors none []
  | array {items : List Written} {entries : List ErrorEntry}
      (read : List.Forall₂ IsEntry items entries) : IsErrors (some (.array items)) entries

/-- Which documents report errors, and what their entries are. -/
inductive IsErrorDocument (w : Written) (entries : List ErrorEntry) : Prop where
  | fields {errors : Option Written} (found : Schema.slots? ["errors"] w = some [errors])
      (has_errors : IsErrors errors entries)

/-- Whether bytes report errors, with these entries. -/
def IsReport (body : Bytes) (entries : List ErrorEntry) : Prop :=
  ∃ w, Json.parse? body = some w ∧ IsErrorDocument w entries

section Reading

variable {w : Written}

theorem isTitle_iff {title : Option Written} {t : String} {depth : Nat} :
    Schema.Fields.value? .defaulted .text depth title = some t ↔ IsTitle title t := by
  constructor
  · intro h
    match title with
    | none => cases h; exact .missing
    | some (.string (some s)) => cases h; exact .text _
  · rintro (_ | _) <;> rfl

theorem isDetail_iff {detail : Option Written} {d : Option String} {depth : Nat} :
    Schema.Fields.value? .defaulted (.optional .text) depth detail = some d ↔
      IsDetail detail d := by
  constructor
  · intro h
    match detail with
    | none => cases h; exact .missing
    | some .null => cases h; exact .null
    | some (.string (some s)) => cases h; exact .text _
  · rintro (_ | _ | _) <;> rfl

/-- The entry that a record is. -/
def ofRecord (r : fields.Record) : ErrorEntry := ⟨r.1, r.2.1⟩

theorem read?_fields {title detail : Option Written} {depth : Nat} (r : fields.Record) :
    fields.read? depth [title, detail] = some r ↔
      IsTitle title (ofRecord r).title ∧ IsDetail detail (ofRecord r).detail := by
  obtain ⟨t, d, ⟨⟩⟩ := r
  have hread := Schema.read?_cons "title" .defaulted .text
    (.cons "detail" .defaulted (.optional .text) .nil) depth [title, detail]
  have hrest := Schema.read?_cons "detail" .defaulted (.optional .text) .nil depth [detail]
  constructor
  · intro h
    obtain ⟨t', ht, h⟩ := Option.bind_eq_some_iff.1 (hread.symm.trans h)
    obtain ⟨rest, h, heq⟩ := Option.map_eq_some_iff.1 h
    obtain ⟨d', hd, h⟩ := Option.bind_eq_some_iff.1 (hrest.symm.trans h)
    cases h
    cases heq
    exact ⟨isTitle_iff.1 ht, isDetail_iff.1 hd⟩
  · rintro ⟨htitle, hdetail⟩
    exact hread.trans (Option.bind_eq_some_iff.2 ⟨t, isTitle_iff.2 htitle,
      Option.map_eq_some_iff.2 ⟨(d, ()), hrest.trans
        (Option.bind_eq_some_iff.2 ⟨d, isDetail_iff.2 hdetail, rfl⟩), rfl⟩⟩)

theorem read?_entry (depth : Nat) {e : ErrorEntry} :
    (∃ r, (Schema.FieldType.record fields).read? (depth + 1) w = some r ∧ ofRecord r = e) ↔
      IsEntry w e := by
  have hslots : slotsWithin? fields.names (depth + 1) w = Schema.slots? ["title", "detail"] w :=
    if_neg (Nat.succ_ne_zero depth)
  have hread := Schema.read?_record (fields.isCutShort_eq_false (by decide) w) (depth + 1)
  rw [hslots] at hread
  constructor
  · rintro ⟨r, h, rfl⟩
    obtain ⟨found, hfound, h⟩ := Option.bind_eq_some_iff.1 (hread.symm.trans h)
    obtain ⟨title, detail, rfl⟩ := List.length_eq_two.1 (length_slots? hfound)
    obtain ⟨htitle, hdetail⟩ := (read?_fields r).1 h
    exact .fields hfound htitle hdetail
  · rintro ⟨hfound, htitle, hdetail⟩
    exact ⟨(_, _, ()), hread.trans (Option.bind_eq_some_iff.2
      ⟨_, hfound, (read?_fields _).2 ⟨htitle, hdetail⟩⟩), rfl⟩

theorem read?_entries {items : List Written} {entries : List ErrorEntry} {depth : Nat} :
    (∃ rs, items.mapM ((Schema.FieldType.record fields).read? (depth + 1)) = some rs ∧
      rs.map ofRecord = entries) ↔ List.Forall₂ IsEntry items entries := by
  constructor
  · rintro ⟨rs, h, rfl⟩
    rw [List.forall₂_map_right_iff]
    exact (mapM_eq_some_iff.1 h).imp fun _ r hr => (read?_entry depth).1 ⟨r, hr, rfl⟩
  · intro h
    induction h with
    | nil => exact ⟨[], rfl, rfl⟩
    | cons first _ ih =>
      obtain ⟨r, hr, rfl⟩ := (read?_entry depth).2 first
      obtain ⟨rs, hrs, rfl⟩ := ih
      exact ⟨r :: rs, mapM_eq_some_iff.2 (.cons hr (mapM_eq_some_iff.1 hrs)), rfl⟩

theorem read?_errors {errors : Option Written} {entries : List ErrorEntry} {depth : Nat} :
    (∃ rs, Schema.Fields.value? .defaulted (.list (.record fields)) (depth + 2) errors = some rs ∧
      List.map ofRecord rs = entries) ↔ IsErrors errors entries := by
  constructor
  · rintro ⟨rs, h, rfl⟩
    match errors with
    | none => cases h; exact .missing
    | some (.array items) => exact .array (read?_entries.1 ⟨rs, h, rfl⟩)
  · rintro (_ | ⟨read⟩)
    · exact ⟨[], rfl, rfl⟩
    · exact read?_entries.2 read

theorem read?_document {entries : List ErrorEntry} :
    (∃ r, (Schema.FieldType.record documentFields).read? Written.depthLimit w = some r ∧
      List.map ofRecord r.1 = entries) ↔ IsErrorDocument w entries := by
  have hread := Schema.read?_record (documentFields.isCutShort_eq_false (by decide) w) Written.depthLimit
  have hfield (errors : Option Written) := Schema.read?_cons "errors" .defaulted
    (.list (.record fields)) .nil (Written.depthLimit - 1) [errors]
  constructor
  · rintro ⟨r, h, rfl⟩
    obtain ⟨found, hfound, h⟩ := Option.bind_eq_some_iff.1 (hread.symm.trans h)
    obtain ⟨errors, rfl⟩ := List.length_eq_one_iff.1 (length_slots? hfound)
    obtain ⟨rs, hrs, h⟩ := Option.bind_eq_some_iff.1 ((hfield errors).symm.trans h)
    cases h
    exact .fields hfound (read?_errors.1 ⟨rs, hrs, rfl⟩)
  · rintro ⟨hfound, herrors⟩
    obtain ⟨rs, hrs, rfl⟩ := read?_errors.2 herrors
    exact ⟨(rs, ()), hread.trans (Option.bind_eq_some_iff.2 ⟨_, hfound, (hfield _).trans
      (Option.bind_eq_some_iff.2 ⟨rs, hrs, rfl⟩)⟩), rfl⟩

/-- **The reader of error documents finds the entries that there are, and no others.** -/
theorem ofBytes?_eq_some_iff {body : Bytes} {entries : List ErrorEntry} :
    ofBytes? body = some entries ↔ IsReport body entries := by
  unfold ofBytes? IsReport
  cases Json.parse? body with
  | none => simp
  | some w =>
    simp only [Option.some.injEq, exists_eq_left']
    rw [← read?_document]
    cases (Schema.FieldType.record documentFields).read? Written.depthLimit w with
    | none => simp
    | some r =>
      constructor
      · exact fun h => ⟨r, rfl, Option.some.inj h⟩
      · rintro ⟨_, ⟨⟩, h⟩
        exact congrArg some h

end Reading

/-! ## 2. What an entry says -/

/-- What an entry says: its title, and behind a blank line its detail, if that says something. -/
def said (e : ErrorEntry) : String :=
  if e.detail.getD "" = "" then e.title else e.title ++ "\n\n" ++ e.detail.getD ""

theorem text_eq (e : ErrorEntry) : e.text = e.said := by
  obtain ⟨title, _ | detail⟩ := e
  · rfl
  · simp [text, said]

/-- Whether a part stands in the title or in the detail of an entry. -/
def Mentions (e : ErrorEntry) (part : String) : Prop :=
  part.toList <:+: e.title.toList ∨
    ∃ detail, e.detail = some detail ∧ part.toList <:+: detail.toList

/-- What does not have the separator in it stands on one side of it. -/
theorem infix_append_cons_iff {α : Type} {part before after : List α} {sep : α}
    (no_sep : sep ∉ part) :
    part <:+: before ++ sep :: after ↔ part <:+: before ∨ part <:+: after := by
  have eq_nil_of_front {l : List α} (hsub : l ⊆ part) (h : l <+: sep :: after) : l = [] := by
    rcases List.prefix_cons_iff.1 h with rfl | ⟨t, rfl, -⟩
    · rfl
    · exact absurd (hsub List.mem_cons_self) no_sep
  rw [List.infix_append_iff, List.infix_cons_iff]
  constructor
  · rintro (h | (h | h) | ⟨l₁, l₂, rfl, hend, hstart⟩)
    · exact .inl h
    · rw [eq_nil_of_front (List.Subset.refl _) h]
      exact .inl (List.nil_infix)
    · exact .inr h
    · rw [eq_nil_of_front (List.subset_append_right _ _) hstart, List.append_nil]
      exact .inl hend.isInfix
  · rintro (h | h)
    · exact .inl h
    · exact .inr (.inl (.inr h))

theorem infix_said_iff {part : String} (e : ErrorEntry) (no_break : '\n' ∉ part.toList) :
    part.toList <:+: e.said.toList ↔ e.Mentions part := by
  have in_title {title : String} (h : part.toList <:+: []) : part.toList <:+: title.toList := by
    rw [List.infix_nil.1 h]
    exact List.nil_infix
  obtain ⟨title, _ | detail⟩ := e
  · simp [said, Mentions]
  by_cases hempty : detail = ""
  · subst hempty
    simpa [said, Mentions] using in_title
  · -- the blank line is two breaks with nothing between them
    have hsaid : (said ⟨title, some detail⟩).toList =
        title.toList ++ '\n' :: ([] ++ '\n' :: detail.toList) := by simp [said, hempty]
    rw [hsaid, infix_append_cons_iff no_break, infix_append_cons_iff no_break]
    constructor
    · rintro (h | h | h)
      · exact .inl h
      · exact .inl (in_title h)
      · exact .inr ⟨detail, rfl, h⟩
    · rintro (h | ⟨_, ⟨⟩, h⟩)
      · exact .inl h
      · exact .inr (.inr h)

/-- **The text of an entry mentions the parameter only where its title or its detail does.** -/
theorem blamesInclude_iff (e : ErrorEntry) :
    e.blamesInclude = true ↔ e.Mentions "include parameter" := by
  rw [blamesInclude, Query.occursIn_iff, text_eq, infix_said_iff e (by decide)]

end ErrorEntry

/-! ## 3. The error of a failed response -/

namespace ApiError

open ErrorEntry

/-- Whether bytes report an error about an `include` parameter. -/
def BlamesInclude (body : Bytes) : Prop :=
  ∃ entries, IsReport body entries ∧ ∃ entry ∈ entries, entry.Mentions "include parameter"

/-- Whether bytes report nothing: they are no error document, or one without entries. -/
def IsSilent (body : Bytes) : Prop := ∀ entries, IsReport body entries → entries = []

/-- The error that a status and a body mean. -/
inductive Means (status : Http.Status) (body : Bytes) : ApiError → Prop where
  | unauthorized (refused : status = 401) : Means status body .unauthorized
  | resourceNotFound (missing : status = 404) : Means status body .resourceNotFound
  | invalidIncludeValue (bad : status = 400) (blames : BlamesInclude body) :
      Means status body .invalidIncludeValue
  | statusLine (not_refused : status ≠ 401) (not_missing : status ≠ 404) (silent : IsSilent body) :
      Means status body (.api (Http.statusLine status) status)
  | entries (not_refused : status ≠ 401) (not_missing : status ≠ 404)
      (not_include : ¬(status = 400 ∧ BlamesInclude body)) {entries : List ErrorEntry}
      (report : IsReport body entries) (some_entry : entries ≠ []) :
      Means status body (.api ("\n".intercalate (entries.map said)) status)

theorem isReport_unique {body : Bytes} {entries entries' : List ErrorEntry}
    (h : IsReport body entries) (h' : IsReport body entries') : entries = entries' :=
  Option.some.inj ((ofBytes?_eq_some_iff.2 h).symm.trans (ofBytes?_eq_some_iff.2 h'))

theorem blamesInclude_iff_any {body : Bytes} {entries : List ErrorEntry}
    (report : IsReport body entries) :
    BlamesInclude body ↔ entries.any ErrorEntry.blamesInclude = true := by
  simp only [BlamesInclude, List.any_eq_true, ErrorEntry.blamesInclude_iff]
  exact ⟨fun ⟨_, h, blamed⟩ => isReport_unique report h ▸ blamed, fun blamed => ⟨_, report, blamed⟩⟩

theorem means_ofResponse (status : Http.Status) (body : Bytes) :
    Means status body (ofResponse status body) := by
  unfold ofResponse
  split
  · next refused => exact .unauthorized refused
  split
  · next missing => exact .resourceNotFound missing
  next refused missing =>
    split
    · next nothing =>
      refine .statusLine refused missing fun entries report => ?_
      rw [ofBytes?_eq_some_iff.2 report] at nothing
      cases nothing
    · next empty =>
      exact .statusLine refused missing fun entries report =>
        isReport_unique report (ofBytes?_eq_some_iff.1 empty)
    · next entries some_entry found =>
      have report := ofBytes?_eq_some_iff.1 found
      split
      · next blamed =>
        exact .invalidIncludeValue blamed.1 ((blamesInclude_iff_any report).2 blamed.2)
      · next blamed =>
        rw [← blamesInclude_iff_any report] at blamed
        rw [List.map_congr_left fun e _ => text_eq e]
        exact .entries refused missing blamed report some_entry

theorem IsSilent.not_blames {body : Bytes} (silent : IsSilent body) : ¬BlamesInclude body := by
  rintro ⟨entries, report, entry, mem, -⟩
  rw [silent entries report] at mem
  exact List.not_mem_nil mem

namespace Means

variable {status : Http.Status} {body : Bytes} {e : ApiError}

theorem status?_eq (h : Means status body e) : e.status? = some status := by
  cases h <;> simp [status?, *]

theorem eq_unauthorized_iff (h : Means status body e) : e = .unauthorized ↔ status = 401 := by
  cases h <;> simp [*]

theorem eq_resourceNotFound_iff (h : Means status body e) :
    e = .resourceNotFound ↔ status = 404 := by
  cases h <;> simp [*]

theorem eq_invalidIncludeValue_iff (h : Means status body e) :
    e = .invalidIncludeValue ↔ status = 400 ∧ BlamesInclude body := by
  cases h with
  | unauthorized refused => simp [refused]
  | resourceNotFound missing => simp [missing]
  | invalidIncludeValue bad blames => exact iff_of_true rfl ⟨bad, blames⟩
  | statusLine _ _ silent => exact iff_of_false nofun fun h => silent.not_blames h.2
  | entries _ _ not_include => exact iff_of_false nofun not_include

/-- Every other error is in words: those of the status line, or those of the entries. -/
theorem eq_api (h : Means status body e) (not_unauthorized : e ≠ .unauthorized)
    (not_missing : e ≠ .resourceNotFound) (not_include : e ≠ .invalidIncludeValue) :
    ∃ message, e = .api message status ∧
      (IsSilent body → message = Http.statusLine status) ∧
      ∀ entries, IsReport body entries → entries ≠ [] →
        message = "\n".intercalate (entries.map said) := by
  cases h with
  | unauthorized => exact absurd rfl not_unauthorized
  | resourceNotFound => exact absurd rfl not_missing
  | invalidIncludeValue => exact absurd rfl not_include
  | statusLine _ _ silent =>
    exact ⟨_, rfl, fun _ => rfl, fun entries report some_entry =>
      absurd (silent entries report) some_entry⟩
  | entries _ _ _ report some_entry =>
    exact ⟨_, rfl, fun silent => absurd (silent _ report) some_entry, fun entries report' _ => by
      rw [isReport_unique report report']⟩

end Means

end ApiError

/-- **A failed response becomes an error with its status.**  The error is the one that the
    status and the body call for, and where they call for none, it is in the words of the
    service, or of the status line if the service says nothing. -/
theorem failure_translated (r : Http.Response) (failed : r.status < 200 ∨ 400 ≤ r.status) :
    ∃ e, checkResponse r = .error e ∧ e.status? = some r.status ∧
      (e = .unauthorized ↔ r.status = 401) ∧
      (e = .resourceNotFound ↔ r.status = 404) ∧
      (e = .invalidIncludeValue ↔ r.status = 400 ∧ ApiError.BlamesInclude (r.body.getD [])) ∧
      (e ≠ .unauthorized → e ≠ .resourceNotFound → e ≠ .invalidIncludeValue →
        ∃ message, e = .api message r.status ∧
          (ApiError.IsSilent (r.body.getD []) → message = Http.statusLine r.status) ∧
          ∀ entries, ErrorEntry.IsReport (r.body.getD []) entries → entries ≠ [] →
            message = "\n".intercalate (entries.map ErrorEntry.said)) := by
  have hcheck : checkResponse r = .error (.ofResponse r.status (r.body.getD [])) := by
    rw [checkResponse, if_neg]
    rw [Http.isSuccess, Bool.and_eq_true, decide_eq_true_iff, decide_eq_true_iff]
    exact fun h => failed.elim (Nat.not_lt.2 h.1) (Nat.not_le.2 h.2)
  have means := ApiError.means_ofResponse r.status (r.body.getD [])
  exact ⟨_, hcheck, means.status?_eq, means.eq_unauthorized_iff, means.eq_resourceNotFound_iff,
    means.eq_invalidIncludeValue_iff, means.eq_api⟩

/-- An answer that two things are wrong. -/
def refusal : Http.Response :=
  ⟨422, [], some (Utf8.encode ("\x7b\"errors\":[\x7b\"title\":\"taken\"," ++
    "\"detail\":\"Choose a name.\"\x7d,\x7b\"title\":\"late\"\x7d]\x7d"))⟩

def refusalEntries : List ErrorEntry := [⟨"taken", some "Choose a name."⟩, ⟨"late", none⟩]

theorem refusal_translated :
    checkResponse refusal = .error (.api "taken\n\nChoose a name.\nlate" 422) := by
  have report : ErrorEntry.IsReport (refusal.body.getD []) refusalEntries :=
    ErrorEntry.ofBytes?_eq_some_iff.1 (by decide +kernel)
  have hjoined : "\n".intercalate (refusalEntries.map ErrorEntry.said) =
      "taken\n\nChoose a name.\nlate" := by decide +kernel
  obtain ⟨e, hcheck, -, h401, h404, h400, words⟩ := failure_translated refusal (.inr (by decide))
  obtain ⟨message, rfl, -, told⟩ := words (mt h401.1 (by decide)) (mt h404.1 (by decide))
    (mt h400.1 fun h => absurd h.1 (by decide))
  rw [hcheck, told _ report (List.cons_ne_nil _ _), hjoined]
  rfl

end TerraformCloud

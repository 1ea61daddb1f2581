/-
  TerraformCloud/Proofs/Simulator/Incoming.lean
  =============================================
  **How the service reads a new workspace.**

  What a client sends about a new workspace says only what the caller said: attributes
  without a value are left out (`sparse`), and some of those that are sent are not known to
  the service.  The service reads the attributes that it knows, each as it was meant
  (`incoming_newWorkspace`).  So the reading is followed field by field here, where the law
  about records that are written as a whole does not apply.
-/
import TerraformCloud.Proofs.Simulator.Serving
import TerraformCloud.Service.Workspaces

namespace TerraformCloud

open Json (Value Written Sendable)
open Json.Value (written ordered)

/-! ## 1. Members that say something -/

namespace Schema

/-- Whether a member with this value is sent. -/
def isSaid : Value → Bool
  | .null => false
  | .array [] => false
  | _ => true

theorem sparse_eq (members : List (String × Value)) : sparse members = members.filter fun m => isSaid m.2 :=
  rfl

/-- **What is found in what is sent** is what is found in all that could be said, if it
    says something. -/
theorem find?_sparse {members : List (String × Value)} (h : (members.map (·.1)).Nodup) (name : String) :
    ((sparse members).find? fun m => m.1 = name).map (·.2) =
      ((members.find? fun m => m.1 = name).map (·.2)).filter isSaid := by
  induction members with
  | nil => rfl
  | cons m members ih =>
    obtain ⟨hm, hmembers⟩ := List.nodup_cons.1 h
    have hrest := ih hmembers
    rw [sparse_eq] at hrest ⊢
    by_cases hname : m.1 = name
    · -- no other member has the name, so nothing is found if this one is left out
      have hnone : members.find? (fun m => m.1 = name) = none := by
        simp only [List.find?_eq_none, decide_eq_true_iff]
        rintro n hn rfl
        exact hm (List.mem_map.2 ⟨n, hn, hname.symm⟩)
      rw [hnone] at hrest
      rw [List.find?_cons_of_pos (by simpa using hname), Option.map_some, Option.filter_some]
      by_cases hsaid : isSaid m.2 = true
      · simp [hname, hsaid]
      · have hdropped : (m :: members).filter (fun m => isSaid m.2) =
            members.filter fun m => isSaid m.2 := List.filter_cons_of_neg hsaid
        rw [hdropped, hrest, if_neg hsaid]
        rfl
    · by_cases hsaid : isSaid m.2 = true
      · simpa [hname, hsaid] using hrest
      · simpa [hname, hsaid] using hrest

theorem value?_text (x : Option String) (depth : Nat) :
    Fields.value? .omittable (.optional .text) depth
      (((some (Value.opt .string x)).filter isSaid).map written) = some x := by
  cases x <;> rfl

theorem value?_flag (x : Option Bool) (depth : Nat) :
    Fields.value? .omittable (.optional .flag) depth
      (((some (Value.opt .bool x)).filter isSaid).map written) = some x := by
  cases x <;> rfl

end Schema

/-! ## 2. The attributes of a new workspace -/

namespace Workspaces.NewWorkspace

open Simulator (newWorkspaceFields)

variable (o : NewWorkspace)

/-- What the service looks at of a new workspace. -/
def fields : newWorkspaceFields.Record :=
  (o.name, o.description, o.autoApply, o.executionMode, o.terraformVersion, o.tagNames.getD [], ())

/-- All that can be said about a new workspace, but its tags. -/
def sayable : List (String × Value) :=
  [textMember "name" o.name, textMember "description" o.description, flagMember "auto-apply" o.autoApply,
   textMember "execution-mode" o.executionMode, textMember "terraform-version" o.terraformVersion,
   textMember "working-directory" o.workingDirectory]

/-- What is said about a new workspace. -/
def members : List (String × Value) :=
  Schema.sparse o.sayable ++ listMember "tag-names" o.tagNames

theorem attributes_draft : o.draft.attributes = .object o.members := rfl

theorem keys_sayable : (o.sayable.map (·.1)).Nodup := by
  change (["name", "description", "auto-apply", "execution-mode", "terraform-version",
    "working-directory"] : List String).Nodup
  decide

theorem keys_members : (o.members.map (·.1)).Nodup := by
  have hsparse : ((Schema.sparse o.sayable).map (·.1)).Sublist (o.sayable.map (·.1)) :=
    List.filter_sublist.map _
  rw [members, List.map_append]
  apply (o.keys_sayable.sublist hsparse).append
  · cases o.tagNames <;> simp [listMember]
  · intro key hkey htags
    have hsayable : key ∈ ["name", "description", "auto-apply", "execution-mode", "terraform-version",
        "working-directory"] := hsparse.subset hkey
    have htag : key = "tag-names" := by
      cases htexts : o.tagNames <;> simp [listMember, htexts] at htags
      exact htags
    rw [htag] at hsayable
    exact absurd hsayable (by decide)

theorem sendable_members : Sendable (.object o.members) 2 := by
  refine Sendable.object o.keys_members fun m hm => ?_
  have hopt : ∀ x : Option String, Sendable (Value.opt .string x) 1 := by
    intro x
    cases x with
    | none => exact .null
    | some s => exact .string s
  rcases List.mem_append.1 hm with hsaid | htags
  · have hsayable := List.mem_of_mem_filter hsaid
    simp only [sayable, List.mem_cons, List.not_mem_nil, or_false] at hsayable
    rcases hsayable with rfl | rfl | rfl | rfl | rfl | rfl
    · exact hopt _
    · exact hopt _
    · cases o.autoApply <;> simp [flagMember, Value.opt, Sendable.null, Sendable.bool]
    · exact hopt _
    · exact hopt _
    · exact hopt _
  · cases htexts : o.tagNames with
    | none => simp [listMember, htexts] at htags
    | some texts =>
      rw [htexts] at htags
      rw [List.mem_singleton.1 htags]
      refine Sendable.array fun v hv => ?_
      obtain ⟨text, -, rfl⟩ := List.mem_map.1 hv
      exact .string text

theorem find?_members (name : String) (hname : name ≠ "tag-names") {v : Value}
    (h : (o.sayable.find? fun m => m.1 = name).map (·.2) = some v) :
    (o.members.find? fun m => m.1 = name).map (·.2) = (some v).filter Schema.isSaid := by
  have htags : (listMember "tag-names" o.tagNames).find? (fun m => m.1 = name) = none := by
    cases o.tagNames <;> simp [listMember, Ne.symm hname]
  rw [members, List.find?_append, htags, Option.or_none, Schema.find?_sparse o.keys_sayable, h]

theorem find?_tags : (o.members.find? fun m => m.1 = "tag-names").map (·.2) =
    o.tagNames.map fun texts => .array (texts.map .string) := by
  have hsayable : (Schema.sparse o.sayable).find? (fun m => m.1 = "tag-names") = none := by
    have hnone := Schema.find?_sparse o.keys_sayable "tag-names"
    rw [show o.sayable.find? (fun m => m.1 = "tag-names") = none from rfl] at hnone
    exact Option.map_eq_none_iff.1 hnone
  rw [members, List.find?_append, hsayable, Option.none_or]
  cases o.tagNames <;> simp [listMember]

theorem value?_tags {depth : Nat} (hdepth : 0 < depth) :
    Schema.Fields.value? .defaulted (.list .text) depth
      ((o.tagNames.map fun texts => (.array (texts.map .string) : Value)).map written) =
        some (o.tagNames.getD []) := by
  cases o.tagNames with
  | none => rfl
  | some texts => exact (Schema.FieldType.list .text).read?_write (by decide) texts depth hdepth

/-- **The attributes are read as they were meant.** -/
theorem read?_members {depth : Nat} (hdepth : 2 ≤ depth) :
    (Schema.FieldType.record newWorkspaceFields).read? depth (written (.object o.members)) =
      some o.fields := by
  have hfound : Schema.valueSlots? newWorkspaceFields.names (.object o.members) =
      some [(some (Value.opt .string o.name)).filter Schema.isSaid,
        (some (Value.opt .string o.description)).filter Schema.isSaid,
        (some (Value.opt .bool o.autoApply)).filter Schema.isSaid,
        (some (Value.opt .string o.executionMode)).filter Schema.isSaid,
        (some (Value.opt .string o.terraformVersion)).filter Schema.isSaid,
        o.tagNames.map fun texts => .array (texts.map .string)] := by
    change some ([_, _, _, _, _, _] : List (Option Value)) = _
    beta_reduce
    rw [o.find?_members "name" (by decide) rfl, o.find?_members "description" (by decide) rfl,
      o.find?_members "auto-apply" (by decide) rfl, o.find?_members "execution-mode" (by decide) rfl,
      o.find?_members "terraform-version" (by decide) rfl, o.find?_tags]
    rfl
  have hpos : depth ≠ 0 := by omega
  rw [Schema.read?_record rfl, slotsWithin?, if_neg hpos, Schema.slots?_written o.sendable_members.distinct,
    hfound, Option.map_some, Option.bind_some]
  simp only [List.map_cons, List.map_nil, newWorkspaceFields, Schema.Fields.ofList, Schema.read?_cons,
    List.head?_cons, List.tail_cons, Option.join_some, Schema.value?_text, Schema.value?_flag,
    o.value?_tags (show 0 < depth - 1 by omega)]
  rfl

end Workspaces.NewWorkspace

/-! ## 3. The body -/

namespace Simulator

/-- The document of a resource without an id. -/
def draftDocument (type : String) (attributes : Value) (relationships : Relationships) : Value :=
  .object <| [("type", .string type), ("attributes", attributes)] ++
    if relationships.isEmpty then [] else [("relationships", Relationships.write relationships)]

theorem sendable_draftDocument {type : String} {attributes : Value} {relationships : Relationships}
    (hattributes : Sendable attributes 4) (hrelationships : relationships.Recoverable 2) :
    Sendable (draftDocument type attributes relationships) 5 := by
  have hwritten := Relationships.sendable_write (Nat.le_refl 2) hrelationships
  rw [draftDocument]
  split
  · refine Sendable.object (by simp) fun m hm => ?_
    simp only [List.append_nil, List.mem_cons, List.not_mem_nil, or_false] at hm
    rcases hm with rfl | rfl
    · exact .string type
    · exact hattributes
  · refine Sendable.object (by simp) fun m hm => ?_
    simp only [List.cons_append, List.nil_append, List.mem_cons, List.not_mem_nil, or_false] at hm
    rcases hm with rfl | rfl | rfl
    · exact .string type
    · exact hattributes
    · exact hwritten

/-- What the service reads of a resource without an id. -/
theorem read?_draftDocument {fields : Schema.Fields} {a : fields.Record} {type : String}
    {attributes : Value} {relationships : Relationships} {depth : Nat}
    (h : (Schema.FieldType.record fields).read? depth attributes.written = some a) :
    (Schema.FieldType.record (.ofList
      [("type", .required, .text), ("attributes", .required, .record fields)])).read? (depth + 1)
        (draftDocument type attributes relationships).written = some (type, a, ()) := by
  have hslots : Schema.slots? ["type", "attributes"] (draftDocument type attributes relationships).written =
      some [some (.string (some type)), some attributes.written] := by
    rw [draftDocument]
    split <;> rfl
  rw [Schema.read?_record rfl, slotsWithin?, if_neg (Nat.succ_ne_zero _)]
  change (Schema.slots? ["type", "attributes"] _).bind _ = _
  rw [hslots]
  simp only [Option.bind_some, Schema.Fields.ofList, Schema.read?_cons, List.head?_cons, List.tail_cons,
    Option.join_some, Schema.Fields.value?, Nat.add_sub_cancel, h]
  rfl

theorem read?_data {type : Schema.FieldType} {x : type.Value} {v : Value} {depth : Nat}
    (h : type.read? depth v.written = some x) :
    (Schema.FieldType.record (.ofList [("data", .required, type)])).read? (depth + 1)
      (written (.object [("data", v)])) = some (x, ()) := by
  rw [Schema.read?_record rfl, slotsWithin?, if_neg (Nat.succ_ne_zero _)]
  change (some [some v.written]).bind _ = _
  simp only [Option.bind_some, Schema.Fields.ofList, Schema.read?_cons, List.head?_cons,
    Option.join_some, Schema.Fields.value?, Nat.add_sub_cancel, h]
  rfl

/-- What a body spells is there in front of nothing. -/
theorem front?_of_parse? {input : Bytes} {w : Written} (h : Json.parse? input = some w) :
    ∃ rest, Json.front? input = some (w, rest) := by
  unfold Json.parse? at h
  split at h
  · next document rest hfront =>
    split at h
    · cases h
      exact ⟨rest, hfront⟩
    · cases h
  · cases h

/-- **The service reads the attributes that were sent.** -/
theorem incoming_of_draft {fields : Schema.Fields} {a : fields.Record} {req : Http.Request} {type : String}
    {attributes : Value} {relationships : Relationships}
    (htype : req.headers.find? "content-type" = some BodyFormat.jsonApi.mediaType)
    (hbody : req.body = some (Body.ofData (draftDocument type attributes relationships)).bytes)
    (hattributes : Sendable attributes 4) (hrelationships : relationships.Recoverable 2)
    (h : (Schema.FieldType.record fields).read? 125 attributes.written = some a) :
    incoming fields req = .ok a := by
  have hsend : Sendable (.object [("data", draftDocument type attributes relationships)]) 6 := by
    refine Sendable.object (List.nodup_singleton _) fun m hm => ?_
    rw [List.mem_singleton.1 hm]
    exact sendable_draftDocument hattributes hrelationships
  obtain ⟨rest, hfront⟩ := front?_of_parse? hsend.parse?_ordered
  have hfits : Schema.Fits (.object [("data", draftDocument type attributes relationships)])
      Written.depthLimit Written.depthLimit :=
    ⟨hsend.distinct, Nat.le_trans hsend.depth_le (by decide), Nat.le_trans hsend.depth_le (by decide)⟩
  have hread := (Schema.FieldType.stable (.record _) _ _ _ hfits).trans (read?_data (read?_draftDocument h))
  have hjson : isJsonType BodyFormat.jsonApi.mediaType = true := by decide +kernel
  have hbytes : req.body.getD [] = Utf8.encode
      (ordered (.object [("data", draftDocument type attributes relationships)])).compact := by
    rw [hbody, Option.getD_some, Body.bytes, Body.text, Body.ofData]
  unfold incoming
  rw [htype, Option.any_some, hjson, hbytes, hfront]
  dsimp only
  rw [hread]
  rfl

theorem resource_draft {o : Workspaces.NewWorkspace} {name : String} (hname : o.name = some name) :
    Body.resource o.draft = .ok (Body.ofData (draftDocument (Attributes.type Workspace)
      (.object o.members) (Workspaces.projectRelationship o.projectId))) := by
  have hne : o.members ≠ [] := by
    have hfound := o.find?_members "name" (by decide) rfl
    rw [hname] at hfound
    intro hnil
    rw [hnil] at hfound
    cases hfound
  rw [Body.resource, Draft.write, o.attributes_draft, Draft.attributesMember_object hne]
  rfl

theorem recoverable_projectRelationship (id : Option String) (depth : Nat) :
    (Workspaces.projectRelationship id).Recoverable depth := by
  intro e he v hv
  cases id with
  | none => cases he
  | some id =>
    have hmem : e ∈ [("project", Relationship.toOne (Attributes.type Project) id)] := he
    rw [List.mem_singleton.1 hmem] at hv
    cases hv

/-- **The service reads a new workspace as it was meant.** -/
theorem incoming_newWorkspace {o : Workspaces.NewWorkspace} {name : String} (hname : o.name = some name)
    {req : Http.Request} {body : Body}
    (htype : req.headers.find? "content-type" = some BodyFormat.jsonApi.mediaType)
    (hsent : Body.resource o.draft = .ok body) (hbody : req.body = some body.bytes) :
    incoming newWorkspaceFields req = .ok o.fields := by
  rw [resource_draft hname, Except.ok.injEq] at hsent
  rw [← hsent] at hbody
  exact incoming_of_draft htype hbody (o.sendable_members.mono (by decide))
    (recoverable_projectRelationship _ _) (o.read?_members (by decide))

end Simulator
end TerraformCloud

import SliceRecords.Proofs.Code.WireCode
import SliceRecords.Proofs.Sorting.Naturality

/-!
# Structs without documentation

A struct can be stripped of its documentation and that of its fields. Bodies of code do not show the
difference, whatever the tags of the fields are: fields with the same bare fields travel in the same
order, and their code is made from bare fields. Main statement: `structBody_undocumented`.
-/

namespace SliceRecords

/-- A field without its documentation. -/
def Field.undocumented (field : Field) : Field :=
  { field with doc := none }

/-- A struct without its documentation and that of its fields. -/
def Struct.undocumented (struct : Struct) : Struct :=
  { struct with
    fields := struct.fields.map Field.undocumented
    doc := none
    untagged_of_compact := fun hcompact =>
      List.forall_mem_map.mpr fun field hfield => struct.untagged_of_compact hcompact field hfield }

namespace Layout

/-- Tagged fields are sorted like their bare fields, also by tags that have no place in
the order of numbers. -/
theorem map_bare_taggedFields (fields : List Field) :
    (taggedFields fields).map Field.bare = taggedFields (fields.map Field.bare) := by
  have hfilter : (fields.map Field.bare).filter Field.isTagged =
      (fields.filter Field.isTagged).map Field.bare := by
    rw [List.filter_map]
    rfl
  have hall : ((fields.map Field.bare).filter Field.isTagged).all Field.hasOrderedTag =
      (fields.filter Field.isTagged).all Field.hasOrderedTag := by
    rw [hfilter, List.all_map]
    rfl
  unfold taggedFields
  dsimp only
  rw [hall, hfilter]
  split
  · exact List.map_mergeSort fun _ _ _ _ => rfl
  · rw [Sorting.sort?_map]
    exact (Option.getD_map (List.map Field.bare) _ _).symm

/-- Documentation does not change the order of fields on the wire. -/
theorem map_bare_wireOrder (fields : List Field) :
    (wireOrder fields).map Field.bare = wireOrder (fields.map Field.bare) := by
  rw [wireOrder, wireOrder, List.map_append, map_bare_taggedFields, untaggedFields, untaggedFields,
    List.filter_map]
  rfl

end Layout

namespace Code

/-- The code of a body is made from the bare fields of a struct, its encodings and its framing. -/
theorem structBody_congr (namespaceName : String) {a b : Struct}
    (hfields : a.fields.map Field.bare = b.fields.map Field.bare)
    (hencodings : a.encodings = b.encodings) (hcompact : a.isCompact = b.isCompact)
    (direction : Direction) :
    structBody namespaceName a direction = structBody namespaceName b direction := by
  have horder :
      (Layout.wireOrder a.fields).map Field.bare = (Layout.wireOrder b.fields).map Field.bare := by
    rw [Layout.map_bare_wireOrder, Layout.map_bare_wireOrder, hfields]
  have hgenerate := Dispatch.map_bareBlock_generate_congr
    (fun encoding => Layout.bareBlock_synthesize_congr horder encoding direction) b.encodings.toList
  have hframing : a.framing direction = b.framing direction := by
    unfold Struct.framing
    rw [hcompact]
  rw [structBody_eq, structBody_eq, Dispatch.map_bareBlock_body, Dispatch.map_bareBlock_body,
    hencodings, hgenerate, hframing]

/-- The code of a body does not show documentation. -/
theorem structBody_undocumented (namespaceName : String) (struct : Struct) (direction : Direction) :
    structBody namespaceName struct.undocumented direction =
      structBody namespaceName struct direction := by
  apply structBody_congr
  · exact List.map_map
  · rfl
  · rfl

end Code

end SliceRecords

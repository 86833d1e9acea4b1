import ClassTidy.Proofs.Config.Loaded
import ClassTidy.Yaml.Reader

/-!
# The keys of a document

No key occurs twice in the value of a document, whichever nodes refer to each other in it.
-/

set_option autoImplicit false

namespace ClassTidy

namespace Yaml

theorem plainValue_distinctKeys {text : Text} {value : Value} (read : plainValue text = .ok value) :
    value.DistinctKeys := by
  simp only [plainValue] at read
  split at read
  · cases read
  split at read
  · cases read
    exact .null
  split at read
  · cases read
    exact .bool
  split at read
  · cases read
    exact .bool
  split at read
  · obtain ⟨number, -, rfl⟩ := map_eq_ok.mp read
    exact .number
  split at read
  · obtain ⟨number, -, rfl⟩ := map_eq_ok.mp read
    exact .number
  · cases read
    exact .text

theorem scalarValue_distinctKeys {tag : Option Text} {text : Text} {isPlain : Bool} {value : Value}
    (read : scalarValue tag text isPlain = .ok value) : value.DistinctKeys := by
  rw [scalarValue.eq_def] at read
  split at read
  · split at read
    · exact plainValue_distinctKeys read
    · cases read
      exact .text
  · split at read
    · cases read
      exact .text
    · cases read

/-- Whatever is found behind a reference has distinct keys. -/
def FindsDistinct (follow : List Nat → Text → Except Fault Value) : Prop :=
  ∀ path name value, follow path name = .ok value → value.DistinctKeys

mutual

theorem Node.value_distinctKeys {follow : List Nat → Text → Except Fault Value}
    (finds : FindsDistinct follow) (path : List Nat) (node : Node) {value : Value}
    (found : node.value follow path = .ok value) : value.DistinctKeys := by
  cases node with
  | scalar tag text isPlain => exact scalarValue_distinctKeys found
  | sequence position tag items =>
    rw [Node.value] at found
    split at found
    · cases found
      exact .enclosing
    · obtain ⟨values, read, rfl⟩ := map_eq_ok.mp found
      exact .list (itemValues_distinctKeys finds _ items read)
  | mapping position tag entries =>
    rw [Node.value] at found
    split at found
    · cases found
      exact .enclosing
    · obtain ⟨values, read, rfl⟩ := map_eq_ok.mp found
      exact .ofEntries (entryValues_distinctKeys finds _ entries read)
  | reference name => exact finds path name value found

theorem itemValues_distinctKeys {follow : List Nat → Text → Except Fault Value}
    (finds : FindsDistinct follow) (path : List Nat) (items : List Node) {values : List Value}
    (found : itemValues follow path items = .ok values) : ∀ value ∈ values, value.DistinctKeys := by
  cases items with
  | nil =>
    cases found
    exact List.forall_mem_nil _
  | cons item rest =>
    obtain ⟨first, itemFound, continued⟩ := bind_eq_ok.mp found
    obtain ⟨later, restFound, same⟩ := bind_eq_ok.mp continued
    cases same
    exact List.forall_mem_cons.mpr ⟨item.value_distinctKeys finds path itemFound,
      itemValues_distinctKeys finds path rest restFound⟩

theorem entryValues_distinctKeys {follow : List Nat → Text → Except Fault Value}
    (finds : FindsDistinct follow) (path : List Nat) (entries : List (Node × Node))
    {values : List (Text × Value)} (found : entryValues follow path entries = .ok values) :
    ∀ entry ∈ values, entry.2.DistinctKeys := by
  cases entries with
  | nil =>
    cases found
    exact List.forall_mem_nil _
  | cons entry rest =>
    obtain ⟨key, node⟩ := entry
    obtain ⟨_, -, keyed⟩ := bind_eq_ok.mp found
    obtain ⟨first, nodeFound, continued⟩ := bind_eq_ok.mp keyed
    obtain ⟨later, restFound, same⟩ := bind_eq_ok.mp continued
    cases same
    exact List.forall_mem_cons.mpr ⟨node.value_distinctKeys finds path nodeFound,
      entryValues_distinctKeys finds path rest restFound⟩

end

theorem lookup_distinctKeys {known : List (Text × Value)}
    (distinct : ∀ entry ∈ known, entry.2.DistinctKeys) {name : Text} {value : Value}
    (found : known.lookup name = some value) : value.DistinctKeys := by
  obtain ⟨front, back, rfl, -⟩ := List.lookup_eq_some_iff.mp found
  exact distinct (name, value) (by simp)

namespace Document

theorem closedValues_distinctKeys {known : List (Text × Value)}
    (distinct : ∀ entry ∈ known, entry.2.DistinctKeys) (named : List (Text × Node))
    {values : List (Text × Value)} (found : closedValues known named = .ok values) :
    ∀ entry ∈ values, entry.2.DistinctKeys := by
  induction named generalizing known with
  | nil =>
    cases found
    exact distinct
  | cons entry rest ih =>
    obtain ⟨name, node⟩ := entry
    rw [closedValues] at found
    split at found
    · obtain ⟨value, nodeFound, restFound⟩ := bind_eq_ok.mp found
      refine ih (List.forall_mem_cons.mpr ⟨?_, distinct⟩) restFound
      refine node.value_distinctKeys ?_ [] nodeFound
      rintro - other value ⟨⟩
      cases looked : known.lookup other with
      | none => exact .null
      | some value => exact lookup_distinctKeys distinct looked
    · exact ih distinct found

theorem follow_findsDistinct (document : Document) {known : List (Text × Value)}
    (distinct : ∀ entry ∈ known, entry.2.DistinctKeys) (fuel : Nat) :
    FindsDistinct (document.follow known fuel) := by
  induction fuel with
  | zero => exact nofun
  | succ fuel ih =>
    intro path name value found
    simp only [follow] at found
    split at found
    · next looked =>
      cases found
      exact lookup_distinctKeys distinct looked
    · exact Node.value_distinctKeys ih path _ found
    · cases found

theorem unfold_distinctKeys (document : Document) {follow : List Nat → Text → Except Fault Value}
    (finds : FindsDistinct follow) (level : Nat) (node : Node) {value : Value}
    (found : document.unfold follow level node = .ok value) : value.DistinctKeys := by
  induction level generalizing node value with
  | zero => exact node.value_distinctKeys finds [] found
  | succ level ih =>
    rw [unfold] at found
    split at found
    · obtain ⟨values, read, same⟩ := bind_eq_ok.mp found
      cases same
      apply Value.DistinctKeys.ofEntries
      intro entry member
      obtain ⟨source, -, entryRead⟩ := exists_of_mem_mapM read entry member
      obtain ⟨_, -, continued⟩ := bind_eq_ok.mp entryRead
      obtain ⟨value, valueRead, same⟩ := bind_eq_ok.mp continued
      cases same
      exact ih _ valueRead
    · exact Node.value_distinctKeys finds [] _ found

theorem value_distinctKeys (document : Document) {size : Nat} {value : Value}
    (found : document.value size = .ok value) : value.DistinctKeys := by
  rw [Document.value] at found
  obtain ⟨_, -, surveyed⟩ := bind_eq_ok.mp found
  obtain ⟨_, -, checked⟩ := bind_eq_ok.mp surveyed
  obtain ⟨known, closed, unfolded⟩ := bind_eq_ok.mp checked
  have distinct := closedValues_distinctKeys (List.forall_mem_nil _) document.named closed
  exact document.unfold_distinctKeys (document.follow_findsDistinct distinct _) _ _ unfolded

end Document

/-- No key occurs twice in the value of a document. -/
theorem read_distinctKeys {text : Text} {value : Value} (found : read text = .ok value) :
    value.DistinctKeys := by
  obtain ⟨document?, -, rest⟩ := bind_eq_ok.mp found
  cases document? with
  | none =>
    cases rest
    exact .null
  | some document => exact document.value_distinctKeys rest

theorem withOneNaN_subset (members : List Value) : withOneNaN members ⊆ members := by
  induction members with
  | nil => exact List.Subset.refl _
  | cons value rest ih =>
    rw [withOneNaN]
    split
    · exact List.cons_subset_cons value List.filter_sublist.subset
    · exact List.cons_subset_cons value ih

theorem settledEntry_key (entry : Text × Value) : (settledEntry entry).1 = entry.1 := by
  obtain ⟨key, value⟩ := entry
  cases value <;> rfl

theorem settledEntry_distinctKeys {entry : Text × Value} (distinct : entry.2.DistinctKeys) :
    (settledEntry entry).2.DistinctKeys := by
  obtain ⟨key, value⟩ := entry
  cases value with
  | list members =>
    cases distinct with
    | list each =>
      refine .list fun item inList => each item ?_
      split at inList
      · exact withOneNaN_subset members inList
      · exact inList
  | _ => exact distinct

theorem settled_distinctKeys {value : Value} (distinct : value.DistinctKeys) :
    (settled value).DistinctKeys := by
  cases value with
  | mapping entries =>
    obtain ⟨keysDistinct, values⟩ := distinct.entries
    have sameKeys : Mapping.keys (entries.map settledEntry) = Mapping.keys entries := by
      rw [Mapping.keys, Mapping.keys, List.map_map]
      exact List.map_congr_left fun entry _ => settledEntry_key entry
    exact .mapping (sameKeys ▸ keysDistinct) (List.forall_mem_map.mpr fun entry member =>
      settledEntry_distinctKeys (values entry member))
  | _ => exact distinct

theorem reader_lawful : reader.Lawful where
  distinctKeys text value found := by
    obtain ⟨document, isRead, rfl⟩ := map_eq_ok.mp found
    exact settled_distinctKeys (read_distinctKeys isRead)

end Yaml

end ClassTidy

import ClassTidy.Config.Loaded
import ClassTidy.Proofs.Config.Paths

/-!
# Configurations that fit

Some values cannot take the place they have in a configuration. Whether those in a loaded
configuration can is told from the document alone, as the defaults can.
-/

set_option autoImplicit false

namespace ClassTidy

namespace Value

/-- Whether a value can be a canonical order: a list of class names, something that has texts as its
parts, or nothing. -/
def fitsOrder : Value → Bool
  | list members => !members.any (·.isCompound)
  | text _ => true
  | mapping _ => true
  | value => !value.isTruthy

/-- Whether a value can name an order file, or names none. -/
def fitsPath : Value → Bool
  | text _ => true
  | value => !value.isTruthy

/-- Whether a value can be a count. One that is no number is at least refused as such. -/
def fitsCount : Value → Bool
  | bool _ => true
  | number (.int _) => true
  | number (.float value) => value.isNaN || !value.isInfinite
  | text _ => true
  | _ => false

end Value

namespace Mapping

def OrderFits (config : Mapping) : Prop :=
  ∀ order ∈ get? classOrderKey config, order.fitsOrder = true

def OrderFileFits (config : Mapping) : Prop :=
  ∀ named ∈ get? "class_order_file".toList config, named.fitsPath = true

def LeastFits (config : Mapping) : Prop :=
  ∀ options, get? "options".toList config = some (.mapping options) →
    ∀ least ∈ get? "multiline_min_class_count".toList options, least.fitsCount = true

end Mapping

/-- What is asked of a reader of documents. -/
structure DocumentReader.Lawful (reader : DocumentReader) : Prop where
  distinctKeys : ∀ text value, reader text = .ok value → value.DistinctKeys

namespace LoadedConfig

open Mapping

/-! ## The document -/

/-- The entries of the document at a path. There are none without a path, or if nothing is there. -/
def documentEntries (reader : DocumentReader) (source : Source) (path : Option Text) :
    Except Fault Mapping :=
  match path with
  | none => .ok []
  | some [] => .ok []
  | some path =>
    match source.text path with
    | .ok text => reader text >>= mapping (Path.plain path)
    | .error (.file shown fault) => if fault.isAbsence then .ok [] else .error (.file shown fault)
    | .error fault => .error fault

theorem config_ofDocument (path : Text) (document : Value) :
    LoadedConfig.config <$> ofDocument path document =
      mapping path document >>= Mapping.layer defaultConfig := by
  rw [ofDocument]
  cases mapping path document with
  | error fault => rfl
  | ok entries =>
    simp only [bind, Except.bind]
    cases Mapping.layer defaultConfig entries <;> rfl

theorem config_read (reader : DocumentReader) (source : Source) (path : Option Text) :
    LoadedConfig.config <$> read reader source path =
      documentEntries reader source path >>= Mapping.layer defaultConfig := by
  rcases path with _ | (_ | ⟨c, rest⟩)
  · rfl
  · rfl
  · simp only [read, documentEntries]
    cases source.text (c :: rest) with
    | ok text =>
      dsimp only
      cases reader text with
      | error fault => rfl
      | ok document => exact config_ofDocument _ document
    | error fault =>
      cases fault with
      | file shown fault => cases absent : fault.isAbsence <;> simp only [absent] <;> rfl
      | _ => rfl

/-- A configuration is loaded just if there is a document that comes to it over the defaults. -/
theorem exists_read_iff {reader : DocumentReader} {source : Source} {path : Option Text}
    {config : Mapping} :
    (∃ loaded, read reader source path = .ok loaded ∧ loaded.config = config) ↔
      ∃ entries, documentEntries reader source path = .ok entries ∧
        Mapping.layer defaultConfig entries = .ok config := by
  rw [← map_eq_ok, config_read, bind_eq_ok]

theorem mapping_distinctKeys {path : Text} {document : Value} {entries : Mapping}
    (distinct : document.DistinctKeys) (found : mapping path document = .ok entries) :
    Value.DistinctKeys (.mapping entries) := by
  unfold mapping at found
  split at found
  · split at found
    · cases found
      exact distinct
    · cases found
  · cases found
    exact .mapping List.nodup_nil (List.forall_mem_nil _)

theorem documentEntries_distinctKeys {reader : DocumentReader} (lawful : reader.Lawful)
    {source : Source} {path : Option Text} {entries : Mapping}
    (found : documentEntries reader source path = .ok entries) :
    Value.DistinctKeys (.mapping entries) := by
  have nothing : Value.DistinctKeys (.mapping []) := .mapping List.nodup_nil (List.forall_mem_nil _)
  unfold documentEntries at found
  split at found
  · cases found
    exact nothing
  · cases found
    exact nothing
  · split at found
    · next text _ =>
      obtain ⟨document, read, isMapping⟩ := bind_eq_ok.mp found
      exact mapping_distinctKeys (lawful.distinctKeys text document read) isMapping
    · split at found
      · cases found
        exact nothing
      · cases found
    · cases found

/-! ## Over the defaults -/

theorem order_default : get? classOrderKey defaultConfig = some (.list []) := rfl

theorem isListFree_default {key : Text} (other : key ≠ classOrderKey) {value : Value}
    (found : get? key defaultConfig = some value) : value.isListFree = true := by
  have elsewhere : ∀ entry ∈ defaultConfig,
      entry.1 ≠ classOrderKey → entry.2.isListFree = true := by
    decide
  exact elsewhere _ (mem_of_get? found) other

theorem layer_order (update : Value) :
    Value.layer classOrderKey (some (.list [])) update =
      match update with
      | .list added => addOrder [] added
      | value => .ok value := by
  cases update <;> rfl

/-- A document is refused over the defaults just if a list or a mapping is to be a class name. -/
theorem exists_layer_default_iff {entries : Mapping}
    (distinct : Value.DistinctKeys (.mapping entries)) :
    (∃ config, Mapping.layer defaultConfig entries = .ok config) ↔
      ∀ members, get? classOrderKey entries = some (.list members) →
        members.any (·.isCompound) = false := by
  obtain ⟨keysDistinct, values⟩ := distinct.entries
  rw [exists_layer_iff keysDistinct]
  constructor
  · intro every members held
    obtain ⟨new, laid⟩ := every _ (mem_of_get? held)
    exact (addOrder_eq_ok.mp laid).1
  · rintro simple ⟨key, value⟩ member
    by_cases other : key = classOrderKey
    · subst other
      have held := get?_of_mem keysDistinct member
      cases value with
      | list members => exact ⟨_, if_neg (Bool.eq_false_iff.mp (simple members held))⟩
      | _ => exact ⟨_, rfl⟩
    · exact Value.exists_layer (values _ member) key fun value => isListFree_default other

theorem exists_layer_of_orderFits {entries : Mapping}
    (distinct : Value.DistinctKeys (.mapping entries)) (fits : OrderFits entries) :
    ∃ config, Mapping.layer defaultConfig entries = .ok config := by
  apply (exists_layer_default_iff distinct).mpr
  intro members held
  have simple := fits _ held
  rwa [Value.fitsOrder, Bool.not_eq_true'] at simple

section

variable {entries config : Mapping} (distinct : Value.DistinctKeys (.mapping entries))
  (layered : Mapping.layer defaultConfig entries = .ok config)
include distinct layered

theorem get?_config (key : Text) :
    (∃ value, get? key entries = some value ∧ ∃ new,
        Value.layer key (get? key defaultConfig) value = .ok new ∧ get? key config = some new) ∨
      get? key entries = none ∧ get? key config = get? key defaultConfig :=
  get?_layer_cases distinct.entries.1 layered key

/-- The order in a configuration: that of the defaults, another list of class names, or what stands
in the document if that is no list. -/
theorem get?_config_order :
    (get? classOrderKey entries = none ∧ get? classOrderKey config = some (.list [])) ∨
    (∃ members kept, get? classOrderKey entries = some (.list members) ∧
      get? classOrderKey config = some (.list kept) ∧
        members.any (·.isCompound) = false ∧ kept.any (·.isCompound) = false) ∨
    ∃ value, get? classOrderKey entries = some value ∧ get? classOrderKey config = some value ∧
      ∀ members, value ≠ .list members := by
  rcases get?_config distinct layered classOrderKey with
    ⟨value, held, new, laid, read⟩ | ⟨absent, same⟩
  · rw [order_default, layer_order] at laid
    cases value with
    | list members =>
      obtain ⟨simple, rfl⟩ := addOrder_eq_ok.mp laid
      exact .inr (.inl ⟨members, _, held, read, simple, Value.any_isCompound_distinct simple⟩)
    | _ =>
      cases laid
      exact .inr (.inr ⟨_, held, read, nofun⟩)
  · exact .inl ⟨absent, same⟩

theorem any_isCompound_config {members : List Value}
    (held : get? classOrderKey config = some (.list members)) :
    members.any (·.isCompound) = false := by
  rcases get?_config_order distinct layered with
    ⟨-, read⟩ | ⟨_, kept, -, read, -, simple⟩ | ⟨value, -, read, noList⟩
  · rw [read] at held
    cases held
    rfl
  · rw [read] at held
    cases held
    exact simple
  · rw [read] at held
    cases held
    exact (noList members rfl).elim

theorem orderFits_iff : OrderFits config ↔ OrderFits entries := by
  rw [OrderFits, OrderFits]
  rcases get?_config_order distinct layered with
    ⟨absent, read⟩ | ⟨members, kept, held, read, simple, keptSimple⟩ | ⟨value, held, read, -⟩
  · rw [absent, read]
    exact iff_of_true (fun _ same => by cases same; rfl) nofun
  · rw [held, read]
    refine iff_of_true ?_ ?_
    · rintro _ ⟨⟩
      rw [Value.fitsOrder, keptSimple]
      rfl
    · rintro _ ⟨⟩
      rw [Value.fitsOrder, simple]
      rfl
  · rw [held, read]

theorem get?_config_orderFile :
    get? "class_order_file".toList config =
      some ((get? "class_order_file".toList entries).getD .null) := by
  have below : get? "class_order_file".toList defaultConfig = some .null := rfl
  rcases get?_config distinct layered "class_order_file".toList with
    ⟨value, held, new, laid, read⟩ | ⟨absent, same⟩
  · rw [below, Value.layer_of_simple (by rintro _ ⟨⟩; rfl)] at laid
    cases laid
    rw [held, read, Option.getD_some]
  · rw [absent, same, below, Option.getD_none]

theorem orderFileFits_iff : OrderFileFits config ↔ OrderFileFits entries := by
  rw [OrderFileFits, OrderFileFits, get?_config_orderFile distinct layered]
  cases get? "class_order_file".toList entries with
  | none => exact iff_of_true (fun _ same => by cases same; rfl) nofun
  | some named => rfl

theorem leastFits_iff : LeastFits config ↔ LeastFits entries := by
  obtain ⟨base, isBase, below⟩ : ∃ base, get? "options".toList defaultConfig = some (.mapping base) ∧
      get? "multiline_min_class_count".toList base = some (.number (.int 5)) := ⟨_, rfl, rfl⟩
  rw [LeastFits, LeastFits]
  rcases get?_config distinct layered "options".toList with
    ⟨value, held, new, laid, read⟩ | ⟨absent, same⟩
  · rw [isBase] at laid
    rw [held, read]
    cases value with
    | mapping options =>
      have keysDistinct : (keys options).Nodup := by
        cases distinct with
        | mapping _ values =>
          cases values _ (mem_of_get? held)
          assumption
      rw [Value.layer_mapping] at laid
      obtain ⟨result, resultLaid, rfl⟩ := map_eq_ok.mp laid
      simp only [Option.some.injEq, Value.mapping.injEq, forall_eq']
      rw [get?_layer_of_simple keysDistinct below rfl resultLaid]
      cases get? "multiline_min_class_count".toList options with
      | none => exact iff_of_true (fun _ same => by cases same; rfl) nofun
      | some least => rfl
    | _ =>
      cases laid
      rfl
  · rw [absent, same]
    refine iff_of_true ?_ nofun
    rintro options ⟨⟩ least ⟨⟩
    rfl

end

end LoadedConfig

end ClassTidy

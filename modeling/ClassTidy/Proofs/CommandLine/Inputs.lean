import ClassTidy.Proofs.CommandLine.Foreseen
import ClassTidy.Proofs.Text.Lines

/-!
# Texts as arguments and as lines of input

With the same options, texts are sorted alike whether they stand behind the mark on the command line
or are the lines of the input. What is wrong with the options or the files halts the run before any
text is looked at.
-/

set_option autoImplicit false

namespace ClassTidy

/-! ## Lines -/

namespace Text

/-- Lines one behind the other, each with its end. -/
def ofLines (lines : List Text) : Text := lines.flatMap (· ++ ['\n'])

/-- Whether a text is read back as it is when it is a line of the input. -/
def IsLine (text : Text) : Prop := '\n' ∉ text ∧ '\r' ∉ text

theorem feedLines_ofLines {lines : List Text} (feedFree : ∀ line ∈ lines, '\n' ∉ line) :
    feedLines (ofLines lines) = lines := by
  induction lines with
  | nil => rfl
  | cons line rest ih =>
    obtain ⟨here, later⟩ := List.forall_mem_cons.mp feedFree
    have inside : ∀ c ∈ line, (c == '\n') = false := by
      intro c member
      exact beq_false_of_ne fun same => here (same ▸ member)
    rw [ofLines, List.flatMap_cons, List.append_assoc, List.singleton_append, feedLines,
      linesBy_append_end inside rfl]
    exact congrArg (line :: ·) (ih later)

theorem unifyLineEnds_ofLines {lines : List Text} (returnFree : ∀ line ∈ lines, '\r' ∉ line) :
    (ofLines lines).unifyLineEnds = ofLines lines := by
  apply unifyLineEnds_of_not_mem
  intro member
  obtain ⟨line, isLine, held⟩ := List.mem_flatMap.mp member
  rcases List.mem_append.mp held with inLine | atEnd
  · exact returnFree line isLine inLine
  · cases List.mem_singleton.mp atEnd

end Text

namespace Arguments

/-! ## Options -/

/-- Whether words are options alone, with the values of those that have one. -/
def areOptions : List Word → Bool
  | [] => true
  | .plain _ :: _ => false
  | .separator :: _ => false
  | .setting _ none :: .plain _ :: rest => areOptions rest
  | _ :: rest => areOptions rest

/-- Whether arguments are options alone, without classes and without the mark behind which these
may stand. A shortened name that stands for several options is one too. -/
def isOptions (arguments : List Text) : Bool :=
  decide (mark ∉ arguments) && (words? arguments).all areOptions

def withTexts (arguments : Arguments) (texts : List Text) : Arguments :=
  { arguments with classes := arguments.classes ++ texts }

theorem classes_give (arguments : Arguments) (flag : Flag) :
    (arguments.give flag).classes = arguments.classes := by
  cases flag <;> rfl

theorem classes_assign {arguments assigned : Arguments} {value : Text} {setting : Setting}
    (given : arguments.assign? value setting = some assigned) :
    assigned.classes = arguments.classes := by
  cases setting with
  | config =>
    cases given
    rfl
  | orderFile =>
    cases given
    rfl
  | multilineLeast =>
    obtain ⟨least, -, rfl⟩ := Option.map_eq_some_iff.mp given
    rfl

def marked (texts : List Text) : List Word := .separator :: texts.map .plain

/-- Whether words are read in the same way without texts and with texts behind the mark, which are
then added to the classes. -/
def ReadsAlike (arguments : Arguments) (stray : Bool) (words : List Word) : Prop :=
  ∀ texts, StepsAlike
    (fun result behind => result.classes = arguments.classes ∧ behind = result.withTexts texts)
    (readWords arguments .ahead stray words)
    (readWords arguments .ahead stray (words ++ marked texts))

section

variable {arguments : Arguments} {stray : Bool}

theorem ReadsAlike.of_refused {words : List Word} {refusal : Refusal}
    (refused : ∀ behind, readWords arguments .ahead stray (words ++ behind) = .error refusal) :
    ReadsAlike arguments stray words :=
  fun _ => .inl ⟨refusal, by simpa using refused [], refused _⟩

/-- Words in front that do not change the classes can be read first. -/
theorem ReadsAlike.of_step {next : Arguments} {nextStray : Bool} (front : List Word)
    {words : List Word} (classes : next.classes = arguments.classes)
    (step : ∀ behind, readWords arguments .ahead stray (front ++ behind) =
      readWords next .ahead nextStray behind)
    (takes : ReadsAlike next nextStray words) : ReadsAlike arguments stray (front ++ words) := by
  intro texts
  rw [List.append_assoc, step, step, ← classes]
  exact takes texts

theorem ReadsAlike.of_assign {value : Text} {setting : Setting} (front : List Word)
    {words : List Word} (assign : ∀ behind, readWords arguments .ahead stray (front ++ behind) =
      match arguments.assign? value setting with
      | some next => readWords next .ahead stray behind
      | none => .error .usage)
    (takes : ∀ next, ReadsAlike next stray words) : ReadsAlike arguments stray (front ++ words) := by
  cases given : arguments.assign? value setting with
  | some next =>
    rw [given] at assign
    exact .of_step front (classes_assign given) assign (takes next)
  | none =>
    rw [given] at assign
    have refused (behind : List Word) :
        readWords arguments .ahead stray (front ++ words ++ behind) = .error .usage := by
      rw [List.append_assoc, assign]
    exact .of_refused refused

theorem readWords_plain (texts : List Text) :
    readWords arguments .inside stray (texts.map .plain) =
      if stray then .error .usage else .ok (arguments.withTexts texts) := by
  induction texts generalizing arguments with
  | nil => rw [List.map_nil, readWords, withTexts, List.append_nil]
  | cons text rest ih =>
    rw [List.map_cons, readWords, if_neg nofun, ih, withTexts, withTexts, List.append_assoc]
    rfl

theorem readWords_marked (texts : List Text) :
    readWords arguments .ahead stray (marked texts) =
      if stray then .error .usage else .ok (arguments.withTexts texts) := by
  rw [marked, readWords, if_neg nofun, readWords_plain]

theorem readsAlike_nil : ReadsAlike arguments stray [] := by
  intro texts
  rw [List.nil_append, readWords_marked, readWords]
  cases stray with
  | true => exact .inl ⟨.usage, rfl, rfl⟩
  | false => exact .inr ⟨arguments, _, rfl, rfl, rfl, rfl⟩

/-- An option reads its value from the words behind it only if that is a plain one. -/
theorem readsAlike_of_missing {setting : Setting} {words : List Word}
    (noValue : ∀ value rest, words ≠ .plain value :: rest) :
    ReadsAlike arguments stray (.setting setting none :: words) := by
  cases words with
  | nil => exact fun _ => .inl ⟨.usage, rfl, rfl⟩
  | cons word rest =>
    cases word with
    | plain value => exact (noValue value rest rfl).elim
    | _ => exact .of_refused fun _ => rfl

/-- No class is read before the mark, so the run of classes stays ahead at every option. -/
theorem readsAlike_of_areOptions {words : List Word} (options : areOptions words = true) :
    ReadsAlike arguments stray words := by
  fun_induction areOptions words generalizing arguments stray with
  | case1 => exact readsAlike_nil
  | case2 => cases options
  | case3 => cases options
  | case4 setting value rest ih =>
    exact .of_assign [_, _] (fun _ => rfl) fun _ => ih options
  | case5 word rest notPlain notMark notGiven ih =>
    cases word with
    | plain text => exact (notPlain text rfl).elim
    | separator => exact (notMark rfl).elim
    | help => exact .of_refused fun _ => rfl
    | overfull => exact .of_refused fun _ => rfl
    | unknown => exact .of_step [_] rfl (fun _ => rfl) (ih options)
    | flag flag =>
      exact .of_step [_] (classes_give arguments flag) (fun _ => rfl) (ih options)
    | setting setting attached =>
      cases attached with
      | some value => exact .of_assign [_] (fun _ => rfl) fun _ => ih options
      | none =>
        apply readsAlike_of_missing
        rintro value later rfl
        exact notGiven setting value later rfl rfl

end

theorem words?_append_mark {options : List Text} (noMark : mark ∉ options) (texts : List Text) :
    words? (options ++ mark :: texts) = (words? options).map (· ++ marked texts) := by
  induction options with
  | nil => exact if_pos rfl
  | cons option rest ih =>
    rw [List.mem_cons, not_or] at noMark
    obtain ⟨other, later⟩ := noMark
    rw [List.cons_append, words?, words?, if_neg (Ne.symm other), if_neg (Ne.symm other), ih later]
    cases Word.ofArgument? option with
    | none => rfl
    | some word => cases words? rest <;> rfl

theorem read_append_mark {options : List Text} (only : isOptions options = true)
    (texts : List Text) :
    StepsAlike (fun result behind => result.classes = [] ∧ behind = result.withTexts texts)
      (read options) (read (options ++ mark :: texts)) := by
  rw [isOptions, Bool.and_eq_true, decide_eq_true_eq] at only
  obtain ⟨noMark, areOptions⟩ := only
  rw [read, read, words?_append_mark noMark]
  cases found : words? options with
  | none => exact .inl ⟨.usage, rfl, rfl⟩
  | some words =>
    rw [found] at areOptions
    exact readsAlike_of_areOptions areOptions texts

theorem attributes_withTexts {arguments : Arguments} (noClasses : arguments.classes = [])
    {texts : List Text} (nonempty : texts ≠ []) (input : Text) :
    (arguments.withTexts texts).attributes input = texts := by
  rw [attributes, withTexts, noClasses, List.nil_append, List.isEmpty_eq_false_iff.mpr nonempty]
  rfl

theorem attributes_ofLines {arguments : Arguments} (noClasses : arguments.classes = [])
    {texts : List Text} (areLines : ∀ text ∈ texts, text.IsLine) :
    arguments.attributes (Text.ofLines texts) = texts := by
  rw [attributes, noClasses, Text.unifyLineEnds_ofLines fun text member => (areLines text member).2,
    Text.feedLines_ofLines fun text member => (areLines text member).1]
  rfl

end Arguments

/-! ## Runs -/

theorem Setup.read_withTexts (reader : DocumentReader) (source : Source) (arguments : Arguments)
    (texts : List Text) :
    Setup.read reader source (arguments.withTexts texts) = Setup.read reader source arguments := rfl

namespace Report

/-- What a run with these options over some texts comes to, wherever the texts are from. -/
def ofTexts (reader : DocumentReader) (source : Source) (options : List Text)
    (texts : List Text) : Except Halt Report :=
  match Arguments.read options with
  | .error refusal => .error (.refused refusal)
  | .ok arguments => do
    let setup ← Setup.read reader source arguments
    return ofSetup setup arguments.verbose texts

section

variable {options : List Text} (only : Arguments.isOptions options = true)
  (reader : DocumentReader) (source : Source) {texts : List Text}
include only

theorem ofCommandLine_append_mark (nonempty : texts ≠ []) (input : Text) :
    ofCommandLine reader source (options ++ Arguments.mark :: texts) input =
      ofTexts reader source options texts := by
  rw [ofCommandLine, ofTexts]
  rcases Arguments.read_append_mark only texts with
    ⟨refusal, refused, behind⟩ | ⟨arguments, _, given, behind, noClasses, rfl⟩
  · rw [refused, behind]
  · rw [given, behind]
    simp only [ofArguments, Setup.read_withTexts, Arguments.attributes_withTexts noClasses nonempty]
    rfl

theorem ofCommandLine_ofLines (areLines : ∀ text ∈ texts, text.IsLine) :
    ofCommandLine reader source options (Text.ofLines texts) =
      ofTexts reader source options texts := by
  rw [ofCommandLine, ofTexts]
  rcases Arguments.read_append_mark only texts with
    ⟨refusal, refused, -⟩ | ⟨arguments, _, given, -, noClasses, -⟩
  · rw [refused]
  · rw [given]
    simp only [ofArguments, Arguments.attributes_ofLines noClasses areLines]

end

section

variable {reader : DocumentReader} {source : Source} {options : List Text}

theorem ofTexts_append {texts more : List Text} {report further : Report}
    (found : ofTexts reader source options texts = .ok report)
    (foundMore : ofTexts reader source options more = .ok further) :
    ∃ whole, ofTexts reader source options (texts ++ more) = .ok whole ∧
      whole.output = report.output ++ further.output := by
  unfold ofTexts at found foundMore ⊢
  cases given : Arguments.read options with
  | error refusal =>
    rw [given] at found
    cases found
  | ok arguments =>
    rw [given] at found foundMore
    obtain ⟨setup, isSetup, same⟩ := bind_eq_ok.mp found
    obtain ⟨again, isAgain, sameMore⟩ := bind_eq_ok.mp foundMore
    cases isSetup.symm.trans isAgain
    cases same
    cases sameMore
    exact ⟨_, bind_eq_ok.mpr ⟨setup, isSetup, rfl⟩, List.flatMap_append⟩

/-- Whether texts come to this outcome behind the options on the command line and as the lines of the
input, and texts one behind the other to the results of each. -/
structure TakesTexts (reader : DocumentReader) (source : Source) (options : List Text)
    (outcome : List Text → Except Halt Report) : Prop where
  asArguments : ∀ texts input, texts ≠ [] →
    ofCommandLine reader source (options ++ Arguments.mark :: texts) input = outcome texts
  asLines : ∀ texts, (∀ text ∈ texts, text.IsLine) →
    ofCommandLine reader source options (Text.ofLines texts) = outcome texts
  inTurn : ∀ texts more report further, outcome texts = .ok report → outcome more = .ok further →
    ∃ whole, outcome (texts ++ more) = .ok whole ∧ whole.output = report.output ++ further.output

/-- With the same options, texts on the command line and lines of the input come to the same: the
run halts whatever the texts are, or sorts each of them. -/
theorem exists_takesTexts (only : Arguments.isOptions options = true)
    (reader : DocumentReader) (source : Source) :
    ∃ outcome, TakesTexts reader source options outcome ∧
      ((∃ halt, ∀ texts, outcome texts = .error halt) ∨
        ∃ arguments setup, Arguments.read options = .ok arguments ∧
          Setup.read reader source arguments = .ok setup ∧
          ∀ texts, outcome texts = .ok {
            output := texts.flatMap fun text => setup.sorter.sort setup.treatment text ++ ['\n']
            diagnostics := Notice.report arguments.verbose (setup.allNotices texts) }) := by
  have takes : TakesTexts reader source options (ofTexts reader source options) := {
    asArguments _ input nonempty := ofCommandLine_append_mark only reader source nonempty input
    asLines _ areLines := ofCommandLine_ofLines only reader source areLines
    inTurn _ _ _ _ found foundMore := ofTexts_append found foundMore }
  refine ⟨_, takes, ?_⟩
  cases given : Arguments.read options with
  | error refusal =>
    refine .inl ⟨.refused refusal, fun texts => ?_⟩
    rw [ofTexts, given]
  | ok arguments =>
    cases found : Setup.read reader source arguments with
    | error halt =>
      refine .inl ⟨halt, fun texts => ?_⟩
      rw [ofTexts, given]
      simp only [found]
      rfl
    | ok setup =>
      refine .inr ⟨arguments, setup, rfl, found, fun texts => ?_⟩
      rw [ofTexts, given]
      exact bind_eq_ok.mpr ⟨setup, found, rfl⟩

end

theorem takesTexts_multiline_least :
    let source := (Folder.ofFiles []).source
    let options := ["--multiline-min".toList, ['2']]
    ∃ outcome, Arguments.isOptions options = true ∧
      TakesTexts Yaml.reader source options outcome ∧
      (outcome [['b', ' ', ' ', 'a'], []]).toOption.map (·.output) =
        some ['b', ' ', 'a', '\n', '\n'] := by
  intro source options
  have only : Arguments.isOptions options = true := by decide
  obtain ⟨outcome, takes, -⟩ := exists_takesTexts only Yaml.reader source
  refine ⟨outcome, only, takes, ?_⟩
  rw [← takes.asArguments [['b', ' ', ' ', 'a'], []] [] (List.cons_ne_nil _ _)]
  decide +kernel

end Report

end ClassTidy

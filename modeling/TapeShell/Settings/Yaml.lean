import TapeShell.Settings.Basic
import TapeShell.Yaml.Scalar

namespace TapeShell.Settings.Yaml

open TapeShell.Yaml

abbrev Macros := List (Bytes × Bytes)

-- What a node says about a setting that need not be given: `none` if it says nothing. A quoted text is never
-- nothing, though it may look like it.
def optional? {α : Type} (n : Node) (value? : Node → Option α) : Option (Option α) :=
  if n.isNullLike && n.isNull then some none else (value? n).map some

def cells? (n : Node) : Option Int :=
  if n.isNullLike then none else n.int?

def isMergeable (anchors : List (Bytes × Node)) (name : Bytes) : Bool :=
  (anchors.lookup name).all Node.isMapping

variable (anchors : List (Bytes × Node))

mutual

def macros? (ms : Macros) : Node → Option Macros
  | .mapping entries => macroEntries? ms entries
  | .alias _ n => macros? ms n
  | .scalar tag text isImplicit => if (Node.scalar tag text isImplicit).isNull then some [] else none
  | .sequence _ => none

def macroEntries? (ms : Macros) : List (Node × Node) → Option Macros
  | [] => some ms
  | (key, value) :: entries =>
    if key.isMerge then
      match mergedMacros? ms value with
      | none => none
      | some ms => macroEntries? ms entries
    else
      match key.text?, value.text? with
      | some name, some source =>
        if (ms.lookup name).isSome then none else macroEntries? (ms ++ [(name, source)]) entries
      | _, _ => none

-- Adds the macros of a mapping, or of several, the last one first.
def mergedMacros? (ms : Macros) : Node → Option Macros
  | .sequence items => mergedMacrosAll? ms items
  | .mapping entries => macroEntries? ms entries
  | .alias name n => if isMergeable anchors name then macros? ms n else none
  | .scalar _ _ _ => none

def mergedMacrosAll? (ms : Macros) : List Node → Option Macros
  | [] => some ms
  | .mapping entries :: ns =>
    match mergedMacrosAll? ms ns with
    | none => none
    | some ms => macroEntries? ms entries
  | .alias name n :: ns =>
    match mergedMacrosAll? ms ns with
    | none => none
    | some ms => if isMergeable anchors name then macros? ms n else none
  | .sequence _ :: _ => none
  | .scalar _ _ _ :: _ => none

end

def setField? (d : Draft) (n : Node) : Field → Option Draft
  | .prompt => (optional? n Node.text?).map fun v => { d with prompt := v }
  | .continuation => (optional? n Node.text?).map fun v => { d with continuation := v }
  | .history => (optional? n Node.text?).map fun v => { d with history := v }
  | .logLevel => (optional? n Node.text?).map fun v => { d with logLevel := v }
  | .timeFormat => (optional? n Node.text?).map fun v => { d with timeFormat := v }
  | .maxCells => (optional? n cells?).map fun v => { d with maxCells := v }
  | .macros => (macros? anchors d.macros n).map fun v => { d with macros := v }

def field? (name : Bytes) : Option Field :=
  Field.all.find? fun f => Bytes.ofString f.key = name

mutual

def fill? (d : Draft) : Node → Option Draft
  | .mapping entries => fillEntries? d [] entries
  | .alias _ n => fill? d n
  | .scalar tag text isImplicit => if (Node.scalar tag text isImplicit).isNull then some {} else none
  | .sequence _ => none

def fillEntries? (d : Draft) (done : List Field) : List (Node × Node) → Option Draft
  | [] => some d
  | (key, value) :: entries =>
    if key.isMerge then
      match fillMerged? d value with
      | none => none
      | some d => fillEntries? d done entries
    else
      match key.text?.bind field? with
      | none => none
      | some f =>
        if f ∈ done then none
        else
          match setField? anchors d value f with
          | none => none
          | some d => fillEntries? d (f :: done) entries

def fillMerged? (d : Draft) : Node → Option Draft
  | .sequence items => fillMergedAll? d items
  | .mapping entries => fillEntries? d [] entries
  | .alias name n => if isMergeable anchors name then fill? d n else none
  | .scalar _ _ _ => none

def fillMergedAll? (d : Draft) : List Node → Option Draft
  | [] => some d
  | .mapping entries :: ns =>
    match fillMergedAll? d ns with
    | none => none
    | some d => fillEntries? d [] entries
  | .alias name n :: ns =>
    match fillMergedAll? d ns with
    | none => none
    | some d => if isMergeable anchors name then fill? d n else none
  | .sequence _ :: _ => none
  | .scalar _ _ _ :: _ => none

end

def draft? (content : Bytes) : Option Draft := do
  let document ← Document.parse? content
  fill? document.anchors {} document.root

end TapeShell.Settings.Yaml

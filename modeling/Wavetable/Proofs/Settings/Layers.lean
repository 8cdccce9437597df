import Wavetable.Proofs.Attempt
import Wavetable.Proofs.Json.Members
import Wavetable.Proofs.Json.RoundTrip
import Wavetable.Settings.Load

/-!
The layers of settings. What is loaded are the settings of the values of a file, overlaid by those
of the environment and these by the caller's. A file that cannot be read counts for nothing, and one
that holds an object counts for its members. Any other value in a file is an error, unless it is a
list of pairs.
-/

namespace Wavetable.Settings

-----------------------------------------------------------------------------------------
-- What a file holds
-----------------------------------------------------------------------------------------

/-- The values that a file gives: the members of the object that it holds. A file that is missing or
cannot be read, or whose text writes no value, gives none.
-/
inductive Gives : Text.File → Json.Members → Prop
  | missing : Gives .missing []
  | directory : Gives .directory []
  | garbled {bytes} : Gives (.garbled bytes) []
  | malformed {content} (unread : Json.read dialect content = .error .malformed)
    : Gives (.text content) []
  | object {content members} (read : Json.read dialect content = .ok (.object members))
    : Gives (.text content) members

/-- The text of a file writes a value that is no object. -/
def HoldsOther (file : Text.File) (value : Json) : Prop :=
  (∃ content, file = .text content ∧ Json.read dialect content = .ok value)
  ∧ ∀ members, value ≠ .object members

/-- The text of a file is nested too deep to be read. -/
def NestsTooDeep (file : Text.File) (inList : Bool) : Prop :=
  ∃ content, file = .text content ∧ Json.read dialect content = .error (.tooDeep inList)

/-- An item of a list that is taken for a value under a name: a list of the two, a text of two
characters, or an object with two members, whose names are taken.
-/
inductive IsPair : Json → String × Json → Prop
  | items {name value} : IsPair (.list [.text name, value]) (name, value)
  | characters {text first second} (two : text.toList = [first, second])
    : IsPair (.text text) (.singleton first, .text (.singleton second))
  | names {name other value value'}
    : IsPair (.object [(name, value), (other, value')]) (name, .text other)

/-- A value that is taken for the members of an object: a list of pairs, or an empty text. -/
inductive TakenFor : Json → Json.Members → Prop
  | pairs {items pairs} (each : List.Forall₂ IsPair items pairs)
    : TakenFor (.list items) (Json.Members.overlay [] pairs)
  | nothing : TakenFor (.text "") []

/-- There is no other kind of file. -/
theorem file_cases (file : Text.File)
    : (∃ members, Gives file members) ∨ (∃ value, HoldsOther file value)
      ∨ ∃ inList, NestsTooDeep file inList := by
  cases file with
  | missing => exact .inl ⟨_, .missing⟩
  | directory => exact .inl ⟨_, .directory⟩
  | garbled bytes => exact .inl ⟨_, .garbled⟩
  | text content =>
      cases read : Json.read dialect content with
      | error error =>
          cases error with
          | malformed => exact .inl ⟨_, .malformed read⟩
          | tooDeep inList => exact .inr (.inr ⟨inList, content, rfl, read⟩)
      | ok value =>
          by_cases object : ∃ members, value = .object members
          · obtain ⟨members, rfl⟩ := object
            exact .inl ⟨members, .object read⟩
          · exact .inr (.inl ⟨value, ⟨content, rfl, read⟩, not_exists.mp object⟩)

-----------------------------------------------------------------------------------------
-- Lists of pairs
-----------------------------------------------------------------------------------------

section
variable {items : List Json} {layer result : Layer} {index : Nat}

theorem IsPair.pairOf {item : Json} {pair : String × Json} (taken : IsPair item pair)
    (index : Nat)
    : pairOf index item = .ok (.text pair.1, pair.2) := by
  cases taken with
  | items => rfl
  | characters two => simp [Settings.pairOf, two]
  | names => rfl

/-- An item that gives a name and a value is a pair, where the name is a text. -/
theorem isPair_of_pairOf {item value : Json} {name : String}
    (given : pairOf index item = .ok (.text name, value))
    : IsPair item (name, value) := by
  unfold pairOf at given
  dsimp only at given
  cases item with
  | null | bool | integer | number => contradiction
  | list parts =>
      match parts, given with
      | [_, _], given =>
          obtain ⟨rfl, rfl⟩ := Prod.mk.inj (Except.ok.inj given)
          exact .items
  | text text =>
      dsimp only at given
      generalize spelled : text.toList = letters at given
      match letters, given with
      | [_, _], given =>
          obtain ⟨same, rfl⟩ := Prod.mk.inj (Except.ok.inj given)
          obtain rfl := Json.text.inj same
          exact .characters spelled
  | object members =>
      match members, given with
      | [(_, _), (_, _)], given =>
          obtain ⟨same, rfl⟩ := Prod.mk.inj (Except.ok.inj given)
          obtain rfl := Json.text.inj same
          exact .names

/-- Pairs are put into a layer one after the other, by induction on the items. -/
theorem layerOfItems_of_pairs {pairs : Json.Members} (each : List.Forall₂ IsPair items pairs)
    : layerOfItems layer index items
      = .ok { layer with members := Json.Members.overlay layer.members pairs } := by
  induction each generalizing layer index with
  | nil => rfl
  | cons taken _ ih =>
      rw [layerOfItems, taken.pairOf index]
      exact ih

/-- A value under something that is no name stays noted, and the names of a layer without one are
texts.
-/
theorem Layer.put_named {name value : Json} (put : layer.put name value = .ok result)
    (named : result.hasForeignName = false)
    : ∃ known, name = .text known
        ∧ result = { layer with members := Json.Members.put layer.members known value }
        ∧ layer.hasForeignName = false := by
  cases name with
  | text known =>
      obtain rfl := Except.ok.inj put
      exact ⟨known, rfl, rfl, named⟩
  | list | object => contradiction
  | null | bool | integer | number =>
      obtain rfl := Except.ok.inj put
      contradiction

/-- Items that give values under names only are pairs, by induction on the items. -/
theorem pairs_of_layerOfItems (laid : layerOfItems layer index items = .ok result)
    (named : result.hasForeignName = false)
    : layer.hasForeignName = false
        ∧ ∃ pairs, List.Forall₂ IsPair items pairs
            ∧ result.members = Json.Members.overlay layer.members pairs := by
  induction items generalizing layer index with
  | nil =>
      obtain rfl := Except.ok.inj laid
      exact ⟨named, [], .nil, rfl⟩
  | cons item rest ih =>
      rw [layerOfItems] at laid
      obtain ⟨⟨name, value⟩, given, laid⟩ := bind_eq_ok.mp laid
      obtain ⟨next, put, laid⟩ := bind_eq_ok.mp laid
      obtain ⟨nextNamed, pairs, each, overlaid⟩ := ih laid
      obtain ⟨known, rfl, rfl, layerNamed⟩ := Layer.put_named put nextNamed
      exact ⟨layerNamed, (known, value) :: pairs, .cons (isPair_of_pairOf given) each, overlaid⟩

end

-----------------------------------------------------------------------------------------
-- What a file counts for
-----------------------------------------------------------------------------------------

section
variable {file : Text.File} {value : Json} {members : Json.Members}

/-- The members that a file gives are those of its value. -/
theorem Gives.fileValue (gives : Gives file members)
    : fileValue file = .ok (.object members) := by
  cases gives with
  | missing | directory | garbled => rfl
  | malformed unread => simp only [Settings.fileValue, unread]
  | object read => simp only [Settings.fileValue, read]

theorem HoldsOther.fileValue (holds : HoldsOther file value)
    : fileValue file = .ok value := by
  obtain ⟨⟨content, rfl, read⟩, _⟩ := holds
  simp only [Settings.fileValue, read]

theorem NestsTooDeep.fileValue {inList : Bool} (nests : NestsTooDeep file inList)
    : fileValue file = .error (.nestedTooDeep inList) := by
  obtain ⟨content, rfl, unread⟩ := nests
  simp only [Settings.fileValue, unread]

theorem TakenFor.layerOfJson (taken : TakenFor value members)
    : layerOfJson value = .ok ⟨members, false⟩ := by
  cases taken with
  | pairs each => exact layerOfItems_of_pairs each
  | nothing => rfl

/-- A value that makes a layer of names, and is no object, is taken for its members. A text of
characters is not, since a single character is no pair.
-/
theorem takenFor_of_layerOfJson {layer : Layer} (laid : layerOfJson value = .ok layer)
    (named : layer.hasForeignName = false) (other : ∀ members, value ≠ .object members)
    : TakenFor value layer.members := by
  cases value with
  | null | bool | integer | number => contradiction
  | object members => exact absurd rfl (other members)
  | list items =>
      obtain ⟨_, pairs, each, overlaid⟩ := pairs_of_layerOfItems laid named
      rw [overlaid]
      exact .pairs each
  | text text =>
      obtain ⟨_, pairs, each, overlaid⟩ := pairs_of_layerOfItems laid named
      cases letters : text.toList with
      | nil =>
          obtain rfl := String.toList_inj.mp (letters.trans String.toList_empty.symm)
          cases each
          rw [overlaid]
          exact .nothing
      | cons letter rest =>
          rw [letters, List.map_cons] at each
          cases each with
          | cons single _ =>
              cases single with
              | characters two => simp at two

end

-----------------------------------------------------------------------------------------
-- The values of the environment
-----------------------------------------------------------------------------------------

/-- The last of the values that are given to a name. -/
def lastValue? (members : Json.Members) (name : String) : Option Json :=
  (members.filter (·.1 = name)).getLast?.map Prod.snd

/-- The value that the environment gives to a name: the variable for it, if it is set and not empty.
That of the seed is a whole number.
-/
def environmentValue? (environment : Environment) (name : String) : Option Json :=
  if name = "rand_seed" then
    (Environment.get? environment "WAVEXPR_RAND_SEED").bind fun text =>
      (seedOfText text).toOption.map .integer
  else if name = "library_path" then
    (Environment.get? environment "WAVEXPR_LIBRARY_PATH").map .text
  else if name = "user_formulas_path" then
    (Environment.get? environment "WAVEXPR_USER_FORMULAS").map .text
  else none

/-- The value of a seed or a path, where its variable is set. -/
theorem lastValue?_put (given : Option Json) (key name : String)
    : lastValue? (given.map (key, ·)).toList name = if key = name then given else none := by
  cases given with
  | none => simp [lastValue?]
  | some value => by_cases same : key = name <;> simp [lastValue?, same]

/-- The values of a seed that was read and of the two paths, as far as their variables are set. -/
def valuesOf (seed : Option Int) (library formulas : Option String) : Json.Members :=
  ((seed.map Json.integer).map ("rand_seed", ·)).toList
    ++ ((library.map Json.text).map ("library_path", ·)).toList
    ++ ((formulas.map Json.text).map ("user_formulas_path", ·)).toList

theorem lastValue?_valuesOf (seed : Option Int) (library formulas : Option String) (name : String)
    : lastValue? (valuesOf seed library formulas) name
      = if name = "rand_seed" then seed.map .integer
        else if name = "library_path" then library.map .text
        else if name = "user_formulas_path" then formulas.map .text
        else none := by
  have behind (members others : Json.Members)
      : lastValue? (members ++ others) name
        = (lastValue? others name).or (lastValue? members name) := by
    rw [lastValue?, lastValue?, lastValue?, List.filter_append, List.getLast?_append]
    cases (others.filter (·.1 = name)).getLast? <;> rfl
  rw [valuesOf, behind, behind, lastValue?_put, lastValue?_put, lastValue?_put]
  by_cases isSeed : name = "rand_seed"
  · subst isSeed
    simp
  by_cases isLibrary : name = "library_path"
  · subst isLibrary
    simp
  by_cases isFormulas : name = "user_formulas_path"
  · subst isFormulas
    simp
  simp [isSeed, isLibrary, isFormulas, Ne.symm isSeed, Ne.symm isLibrary, Ne.symm isFormulas]

/-- The seed is read first, then each path is put behind it. -/
theorem environmentMembers_eq (environment : Environment)
    : environmentMembers environment
      = ((Environment.get? environment "WAVEXPR_RAND_SEED").mapM seedOfText).map fun seed =>
          valuesOf seed (Environment.get? environment "WAVEXPR_LIBRARY_PATH")
            (Environment.get? environment "WAVEXPR_USER_FORMULAS") := by
  unfold environmentMembers valuesOf
  dsimp only
  cases Environment.get? environment "WAVEXPR_LIBRARY_PATH" <;>
    cases Environment.get? environment "WAVEXPR_USER_FORMULAS" <;>
      cases Environment.get? environment "WAVEXPR_RAND_SEED" with
      | none => rfl
      | some text =>
          cases read : seedOfText text <;>
            simp [read, bind, Except.bind, pure, Except.pure, Except.map, Functor.map]

/-- The environment gives its values, unless the seed that is set is no whole number. -/
theorem environmentMembers_cases (environment : Environment)
    : (∃ text fault, Environment.get? environment "WAVEXPR_RAND_SEED" = some text
          ∧ seedOfText text = .error fault ∧ environmentMembers environment = .error fault)
      ∨ ∃ given, environmentMembers environment = .ok given
          ∧ ∀ name, lastValue? given name = environmentValue? environment name := by
  rw [environmentMembers_eq]
  unfold environmentValue?
  cases Environment.get? environment "WAVEXPR_RAND_SEED" with
  | none => exact .inr ⟨_, rfl, lastValue?_valuesOf none _ _⟩
  | some text =>
      cases read : seedOfText text with
      | error fault =>
          exact .inl ⟨text, fault, rfl, read, by simp [read, Functor.map, Except.map]⟩
      | ok seed =>
          refine .inr ⟨_, by simp [read, Functor.map, Except.map]; rfl, fun name => ?_⟩
          rw [lastValue?_valuesOf]
          simp [read, Except.toOption]

-----------------------------------------------------------------------------------------
-- The layers
-----------------------------------------------------------------------------------------

/-- Values of three layers, each laid over the one before: those of a file, those of the environment
and those of the caller.
-/
structure IsLayered (members : Json.Members) (environment : Environment)
    (overrides values : Json.Members) : Prop where
  laid : ∃ given, environmentMembers environment = .ok given
    ∧ values = Json.Members.overlay (Json.Members.overlay members given) overrides
  found : ∀ name, Json.Members.get? values name
    = ((lastValue? overrides name).or (environmentValue? environment name)).or
        (Json.Members.get? members name)

/-- What loading comes to, where a file gives certain values: the settings of the layered values,
unless the seed that is set is no whole number.
-/
inductive IsLoadOf (members : Json.Members) (environment : Environment)
    (overrides : Json.Members) : Except Error Settings → Prop
  | refused {text fault} (set : Environment.get? environment "WAVEXPR_RAND_SEED" = some text)
      (unread : seedOfText text = .error fault)
    : IsLoadOf members environment overrides (.error fault)
  | made {values} (layered : IsLayered members environment overrides values)
    : IsLoadOf members environment overrides (ofMembers values)

section
variable {file : Text.File} {value : Json} {members : Json.Members}

/-- A file that makes a layer of names is loaded in layers. -/
theorem isLoadOf_of_layer (held : fileValue file = .ok value)
    (laid : layerOfJson value = .ok ⟨members, false⟩) (environment : Environment)
    (overrides : Json.Members)
    : IsLoadOf members environment overrides (load file environment overrides) := by
  have steps : load file environment overrides
      = (environmentMembers environment).bind fun given =>
          ofMembers (Json.Members.overlay (Json.Members.overlay members given) overrides) := by
    unfold load
    simp only [held, laid, bind, Except.bind]
    rfl
  rw [steps]
  obtain ⟨text, fault, set, unread, failed⟩ | ⟨given, read, valued⟩ :=
    environmentMembers_cases environment
  · rw [failed]
    exact .refused set unread
  · rw [read]
    refine .made ⟨⟨given, read, rfl⟩, fun name => ?_⟩
    rw [Json.Members.get?_overlay, Json.Members.get?_overlay, Json.Members.last?,
      Json.Members.last?, ← lastValue?, ← lastValue?, valued, Option.or_assoc]

/-- Where no layer of names is made, nothing is loaded. -/
theorem load_fails_of_layer (held : fileValue file = .ok value)
    (foreign : ∀ layer, layerOfJson value = .ok layer → layer.hasForeignName = true)
    (environment : Environment) (overrides : Json.Members)
    : ∃ fault, load file environment overrides = .error fault := by
  cases outcome : load file environment overrides with
  | error fault => exact ⟨fault, rfl⟩
  | ok settings =>
      obtain ⟨content, read, outcome⟩ := bind_eq_ok.mp outcome
      obtain rfl := Except.ok.inj (held.symm.trans read)
      obtain ⟨layer, laid, outcome⟩ := bind_eq_ok.mp outcome
      obtain ⟨given, _, outcome⟩ := bind_eq_ok.mp outcome
      simp [foreign layer laid, bind_eq_ok, throw_ne_ok] at outcome

end

/-- Settings are loaded in layers, by the kind of the file. What an object gives, or a file that
cannot be read, lies below the environment and the caller's values, and a file that gives nothing is
the same as none. Of other values, a list of pairs counts for its pairs and an empty text for
nothing; any further one is an error, and so is a text that is nested too deep.
-/
theorem load_layers (file : Text.File) (environment : Environment) (overrides : Json.Members)
    : (∀ members, Gives file members →
        IsLoadOf members environment overrides (load file environment overrides))
      ∧ (Gives file [] → load file environment overrides = load .missing environment overrides)
      ∧ (∀ value members, HoldsOther file value → TakenFor value members →
        IsLoadOf members environment overrides (load file environment overrides))
      ∧ (∀ value, HoldsOther file value → (∀ members, ¬TakenFor value members) →
        ∃ fault, load file environment overrides = .error fault)
      ∧ (∀ inList, NestsTooDeep file inList →
        load file environment overrides = .error (.nestedTooDeep inList))
      ∧ ((∃ members, Gives file members) ∨ (∃ value, HoldsOther file value)
        ∨ ∃ inList, NestsTooDeep file inList) := by
  refine ⟨?object, ?nothing, ?taken, ?other, ?deep, file_cases file⟩
  case object =>
    intro members gives
    exact isLoadOf_of_layer gives.fileValue rfl environment overrides
  case nothing =>
    intro gives
    unfold load
    rw [gives.fileValue, Gives.missing.fileValue]
  case taken =>
    intro value members holds taken
    exact isLoadOf_of_layer holds.fileValue taken.layerOfJson environment overrides
  case other =>
    intro value holds untaken
    refine load_fails_of_layer holds.fileValue (fun layer laid => ?_) environment overrides
    by_contra named
    exact untaken _
      (takenFor_of_layerOfJson laid (Bool.eq_false_iff.mpr named) holds.2)
  case deep =>
    intro inList nests
    unfold load
    rw [nests.fileValue]
    rfl

/-- A file that gives a seed and a path, with another path in the environment and another seed from
the caller.
-/
theorem load_layers_seed_and_path
    : let members : Json.Members := [("rand_seed", .integer 7), ("library_path", .text "below")]
      let file : Text.File := .text (Json.indented (.object members))
      let environment : Environment := [("WAVEXPR_LIBRARY_PATH", "between")]
      let overrides : Json.Members := [("rand_seed", .integer 9)]
      Gives file members
        ∧ IsLoadOf members environment overrides (load file environment overrides)
        ∧ load file environment overrides
          = .ok { default with randomSeed := 9, libraryPath := .text "between" } := by
  intro members file environment overrides
  have readable : Json.Readable dialect dialect.maxDepth (.object members) := by
    refine .object rfl (by simp [members]) (by simp [members]) ?_
    intro member given
    obtain rfl | rfl := by simpa [members] using given
    · exact .integer (by decide)
    · exact .text _
  have gives : Gives file members := .object (Json.read_indented readable)
  refine ⟨gives, (load_layers file environment overrides).1 members gives, ?_⟩
  unfold load
  rw [gives.fileValue]
  rfl

/-- A file that holds null stops the load, where one that is missing leaves the usual settings. -/
theorem null_stops_load
    : HoldsOther (.text "null") .null
      ∧ load (.text "null") [] [] = .error .unusableContent
      ∧ load .missing [] [] = .ok default := by
  have read : Json.read dialect "null" = .ok .null := by
    simp [Json.read, Json.readValue, Json.skipSpace, Json.isSpace, Json.readScalar,
      Json.orMalformed, bind, Except.bind, pure, Except.pure]
  have holds : HoldsOther (.text "null") .null := ⟨⟨_, rfl, read⟩, fun _ => Json.noConfusion⟩
  refine ⟨holds, ?_, rfl⟩
  unfold load
  rw [holds.fileValue]
  rfl

end Wavetable.Settings

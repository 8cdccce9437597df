import Wavetable.Catalogue.Bundle
import Wavetable.Catalogue.Disk
import Wavetable.Catalogue.State

/-!
The catalogue: bundled formulas, the user's own and favorites among both. Every edit is saved at
once, and an edit that cannot be saved is undone.
-/

namespace Wavetable.Catalogue

/-- The entries, bundled ones for single frames and for whole tables, and the user's own. -/
structure Store where
  singles : List Entry
  multis : List Entry
  user : List Entry
  deriving Repr, DecidableEq

def Store.empty : Store :=
  ⟨[], [], []⟩

def Store.bundled (store : Store) : List Entry :=
  store.singles ++ store.multis

/-- The store with other formulas of the user. -/
def Store.withUser (store : Store) (user : List Entry) : Store :=
  { store with user := user }

/-- All entries, the bundled ones first. -/
def Store.every (store : Store) : List Entry :=
  store.bundled ++ store.user

/-- The paths of the files, of which that of the state may be missing. -/
structure Paths where
  library : String
  state : Option String
  deriving Repr, DecidableEq

/-- What comes from outside: the identifiers that are drawn, one after the other, and the time. -/
structure Outside where
  ids : Nat → Uuid
  now : Timestamp

/-- The catalogue with its files, and how many identifiers were drawn. -/
structure Session where
  paths : Paths
  disk : Disk
  store : Store
  drawn : Nat

/-- The catalogue with another store. -/
def Session.withStore (session : Session) (store : Store) : Session :=
  { session with store := store }

/-- Why an operation of the catalogue fails. -/
inductive Error
  | unreadable (path : String)
  | undecodable
  | invalidState (path : String) (places : List Place)
  | stateIsDirectory (path : String)
  | unwritable (path : String) (cause : WriteError)
  | directoryBlocked
  | invalidFormula (error : Formula.SyntaxError)
  | needsFrameVariables
  | needsNoFrameVariables
  | invalidEntry (labels : List String)
  | unknownUserFormula (id : Uuid)
  | unknownFormula (id : Uuid)
  deriving Repr, DecidableEq

/-- The wording of a directory that stands where a file should be. -/
def directoryMessage (path : String) : String :=
  "[Errno 21] Is a directory: " ++ Text.quote path

/-- The wording of what stands in the way of writing. -/
def WriteError.message (path : String) : WriteError → String
  | .directoryBlocked => "[Errno 17] File exists: " ++ Text.quote path
  | .noSpace => "[Errno 28] No space left on device"
  | .isDirectory => directoryMessage path

def Error.message : Error → String
  | .unreadable path => "Cannot read " ++ path ++ ": " ++ directoryMessage path
  | .undecodable => "the file is no text"
  | .invalidState _ _ => "Invalid formula state file"
  | .stateIsDirectory path => "Invalid formula state file " ++ path ++ ": " ++ directoryMessage path
  | .unwritable path cause => "Cannot write " ++ path ++ ": " ++ cause.message path
  | .directoryBlocked => "the directory of the state file is a file"
  | .invalidFormula error => "Invalid formula: " ++ error.message
  | .needsFrameVariables => "Multi-frame formulas must use y or z"
  | .needsNoFrameVariables => "Single-frame formulas cannot use y or z"
  | .invalidEntry _ => "Invalid formula entry"
  | .unknownUserFormula id => "Unknown user formula id: " ++ id.toText
  | .unknownFormula id => "Unknown formula id: " ++ id.toText

/-- A result and the catalogue afterwards. -/
abbrev Outcome (α : Type) := Except Error α × Session

/-- The name of a bundled file. -/
def bundleFile (isMultiFrame : Bool) : String :=
  if isMultiFrame then "FormulaUserMultis.txt" else "FormulaUserSingles.txt"

/-- The entries of a bundled file; a missing one has none. -/
def readBundle (now : Timestamp) (library : String) (isMultiFrame : Bool)
    : Text.File → Except Error (List Entry)
  | .missing => .ok []
  | .directory => .error (.unreadable (library ++ "/" ++ bundleFile isMultiFrame))
  | .garbled _ => .error .undecodable
  | .text content => .ok (bundle now isMultiFrame content)

/-- The bundled entries are read anew, first those for single frames. -/
def loadBundled (outside : Outside) (session : Session) : Outcome Unit :=
  match readBundle outside.now session.paths.library false session.disk.singles with
  | .error error => (.error error, session)
  | .ok singles =>
      let session := { session with store := { session.store with singles := singles } }
      match readBundle outside.now session.paths.library true session.disk.multis with
      | .error error => (.error error, session)
      | .ok multis =>
          (.ok (), { session with store := { session.store with multis := multis } })

/-- The entry of a stored one, with a drawn identifier and the time where they are missing. -/
def StoredEntry.complete (outside : Outside) (drawn : Nat) (entry : StoredEntry) : Entry where
  id := entry.id.getD (outside.ids drawn)
  expression := entry.labels.expression
  name := entry.labels.name
  category := entry.labels.category
  isFavorite := entry.isFavorite
  isUserCreated := entry.isUserCreated
  created := entry.created.getD outside.now
  modified := entry.modified.getD outside.now

/-- The entries of stored ones; each without an identifier draws one. -/
def completeAll (outside : Outside) : Nat → List StoredEntry → List Entry
  | _, [] => []
  | drawn, entry :: rest =>
      let next := if entry.id.isNone then drawn + 1 else drawn
      entry.complete outside drawn :: completeAll outside next rest

/-- An entry with its favorite flag set as told. -/
def Entry.withFavorite (entry : Entry) (flag : Bool) : Entry :=
  { entry with isFavorite := flag }

/-- A bundled entry is a favorite exactly if it is listed. -/
def markBundled (favorites : List Uuid) (entry : Entry) : Entry :=
  entry.withFavorite (favorites.contains entry.id)

/-- An entry of the user is a favorite if it is listed or says so itself. -/
def markUser (favorites : List Uuid) (entry : Entry) : Entry :=
  entry.withFavorite (entry.isFavorite || favorites.contains entry.id)

def Store.withState (store : Store) (user : List Entry) (favorites : List Uuid) : Store where
  singles := store.singles.map (markBundled favorites)
  multis := store.multis.map (markBundled favorites)
  user := user.map (markUser favorites)

/-- A state taken over into the catalogue. -/
def takeState (outside : Outside) (session : Session) (state : State) : Session :=
  let user := completeAll outside session.drawn state.entries
  { session with
    store := session.store.withState user state.favorites
    drawn := session.drawn + (state.entries.filter (·.id.isNone)).length }

/-- The state of the user is read, if there is one. -/
def loadUserState (outside : Outside) (session : Session) : Outcome Unit :=
  match session.paths.state with
  | none => (.ok (), session)
  | some path =>
      match session.disk.visibleState with
      | .missing => (.ok (), session)
      | .directory => (.error (.stateIsDirectory path), session)
      | .garbled _ => (.error .undecodable, session)
      | .text content =>
          match State.ofText content with
          | .error places => (.error (.invalidState path places), session)
          | .ok state => (.ok (), takeState outside session state)

/-- A new catalogue on files, which reads them all or, if told so, none. -/
def openSession (outside : Outside) (paths : Paths) (disk : Disk) (drawn : Nat)
    (autoload : Bool) : Outcome Unit :=
  let session : Session := ⟨paths, disk, .empty, drawn⟩
  if autoload then
    match loadBundled outside session with
    | (.error error, session) => (.error error, session)
    | (.ok (), session) => loadUserState outside session
  else (.ok (), session)

/-- The identifiers of the favorites, in the order of the entries. -/
def Store.favoriteIds (store : Store) : List Uuid :=
  (store.every.filter (·.isFavorite)).map (·.id)

/-- The text that the state of the user has when it is saved. -/
def Store.text (store : Store) : String :=
  stateText store.user store.favoriteIds

/-- The state of the user is written, if it has a file. -/
def save (session : Session) : Outcome Unit :=
  match session.paths.state with
  | none => (.ok (), session)
  | some path =>
      match session.disk.write session.store.text with
      | (.ok (), disk) => (.ok (), { session with disk := disk })
      | (.error .directoryBlocked, disk) =>
          (.error .directoryBlocked, { session with disk := disk })
      | (.error cause, disk) => (.error (.unwritable path cause), { session with disk := disk })

/-- An edit as it stands in memory before it is saved, and what takes it back. -/
structure Change (α : Type) where
  session : Session
  undo : Store → Store
  result : α

/-- An edit stays in memory where the directory of the state could not be made. -/
def staysInMemory : Error → Bool
  | .directoryBlocked => true
  | _ => false

/-- An edit is saved. Where that fails it is taken back, unless it stays. -/
def Change.commit (change : Change α) : Outcome α :=
  match save change.session with
  | (.ok (), session) => (.ok change.result, session)
  | (.error error, session) =>
      if staysInMemory error then (.error error, session)
      else (.error error, session.withStore (change.undo session.store))

/-- An edit that is allowed is saved; any other leaves the catalogue as it is. -/
def commitIfAllowed (session : Session) : Except Error (Change α) → Outcome α
  | .error error => (.error error, session)
  | .ok change => change.commit

/-- The formula of a new entry has to be of the mode that is asked for. -/
def checkMode (expression : String) (isMultiFrame : Bool) : Except Error Unit :=
  match Formula.compile expression with
  | .error error => .error (.invalidFormula error)
  | .ok formula =>
      if formula.mode = .ofFlag isMultiFrame then .ok ()
      else if isMultiFrame then .error .needsFrameVariables
      else .error .needsNoFrameVariables

/-- The labels of an entry, none of which may be blank. -/
def checkLabels (expression name category : String) : Except Error Labels :=
  match Labels.ofTexts expression name category with
  | .ok labels => .ok labels
  | .error blank => .error (.invalidEntry blank)

/-- The entry that a user adds. -/
def Labels.newEntry (labels : Labels) (id : Uuid) (now : Timestamp) : Entry where
  id := id
  expression := labels.expression
  name := labels.name
  category := labels.category
  isFavorite := false
  isUserCreated := true
  created := now
  modified := now

/-- A formula put behind the others. It is taken back as the first one that is equal to it. -/
def Session.adding (session : Session) (entry : Entry) : Change Entry where
  session :=
    { session with
      store := session.store.withUser (session.store.user ++ [entry])
      drawn := session.drawn + 1 }
  undo store := store.withUser (store.user.erase entry)
  result := entry

/-- The change that adds a formula with a drawn identifier, if there is one. -/
def addition (outside : Outside) (session : Session) (expression name category : String)
    (isMultiFrame : Bool) : Except Error (Change Entry) := do
  checkMode expression isMultiFrame
  let labels ← checkLabels expression name category
  pure (session.adding (labels.newEntry (outside.ids session.drawn) outside.now))

/-- A formula of the user is added behind the others. -/
def add (outside : Outside) (session : Session) (expression name category : String)
    (isMultiFrame : Bool) : Outcome Entry :=
  commitIfAllowed session (addition outside session expression name category isMultiFrame)

/-- The place of the formula of the user with an identifier, and the formula. -/
def Store.findUser (store : Store) (id : Uuid) : Except Error (Nat × Entry) :=
  match store.user.findIdx? (·.id = id) with
  | none => .error (.unknownUserFormula id)
  | some index =>
      match store.user[index]? with
      | none => .error (.unknownUserFormula id)
      | some entry => .ok (index, entry)

def Entry.relabel (entry : Entry) (labels : Labels) (now : Timestamp) : Entry :=
  { entry with
    expression := labels.expression
    name := labels.name
    category := labels.category
    modified := now }

/-- A formula put in the place of another one, which comes back there. -/
def Session.replacing (session : Session) (index : Nat) (current entry : Entry)
    : Change Entry where
  session := session.withStore (session.store.withUser (session.store.user.set index entry))
  undo store := store.withUser (store.user.set index current)
  result := entry

/-- The change that replaces the texts of a formula, if there is one. -/
def replacement (outside : Outside) (session : Session) (id : Uuid)
    (expression name category : String) : Except Error (Change Entry) := do
  let (index, current) ← session.store.findUser id
  let labels ← checkLabels expression name category
  pure (session.replacing index current (current.relabel labels outside.now))

/-- The texts of a formula of the user are replaced. The new formula need not be readable. -/
def update (outside : Outside) (session : Session) (id : Uuid)
    (expression name category : String) : Outcome Entry :=
  commitIfAllowed session (replacement outside session id expression name category)

/-- A formula taken out, which comes back at its place. -/
def Session.removing (session : Session) (index : Nat) (entry : Entry) : Change Unit where
  session := session.withStore (session.store.withUser (session.store.user.eraseIdx index))
  undo store := store.withUser (store.user.insertIdx index entry)
  result := ()

/-- The change that removes a formula, if there is one. -/
def removal (session : Session) (id : Uuid) : Except Error (Change Unit) := do
  let (index, entry) ← session.store.findUser id
  pure (session.removing index entry)

/-- A formula of the user is removed. -/
def delete (session : Session) (id : Uuid) : Outcome Unit :=
  commitIfAllowed session (removal session id)

/-- Entries with the flag of the first one with an identifier set as told. -/
def markFirst (id : Uuid) (flag : Bool) : List Entry → List Entry
  | [] => []
  | entry :: rest =>
      if entry.id = id then entry.withFavorite flag :: rest
      else entry :: markFirst id flag rest

/-- The store with the flag of the first entry with an identifier set as told. -/
def Store.mark (store : Store) (id : Uuid) (flag : Bool) : Store :=
  if store.singles.any (·.id = id) then { store with singles := markFirst id flag store.singles }
  else if store.multis.any (·.id = id) then
    { store with multis := markFirst id flag store.multis }
  else { store with user := markFirst id flag store.user }

/-- The first entry with an identifier. -/
def Store.get? (store : Store) (id : Uuid) : Option Entry :=
  store.every.find? (·.id = id)

/-- The flag of the first entry with an identifier turned, and set as it was before again. -/
def Session.flagging (session : Session) (id : Uuid) (previous : Bool) : Change Bool where
  session := session.withStore (session.store.mark id !previous)
  undo store := store.mark id previous
  result := !previous

/-- The change that turns the flag of an entry, if there is one. -/
def flagChange (session : Session) (id : Uuid) : Except Error (Change Bool) :=
  match session.store.get? id with
  | none => .error (.unknownFormula id)
  | some entry => .ok (session.flagging id entry.isFavorite)

/-- An entry becomes a favorite or ceases to be one. -/
def toggleFavorite (session : Session) (id : Uuid) : Outcome Bool :=
  commitIfAllowed session (flagChange session id)

end Wavetable.Catalogue

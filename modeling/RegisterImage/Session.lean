import RegisterImage.Image.Build
import RegisterImage.Plan.Compile
import RegisterImage.Profile

/-!
# Sessions

A session edits the settings of one catalog and works on one image. It goes on after a step
that fails; such a step changes nothing but which menus have been looked at.

## Main definitions

* `Session` — catalog, settings and the buffer with the image.
* `Step`, `Answer` — what can be done, and what comes of it.
* `Session.step` — one step.
* `Session.run` — a list of steps, with the answer to each and the session after it.
-/

namespace RegisterImage

structure Session where
  catalog : Catalog
  settings : Settings
  buffer : Bytes

inductive Step where
  | setValue (code text : String)
  | selectPreset (code label : String)
  | clearPreset (code : String)
  | reset
  | applyValues (values : List (String × Json))
  | applyProfile (document : Json)
  | applyWrites (writes : List DeviceWrite)
  | applyImage
  | compile
  | replace (register : Json)
  | menu (code : String)
  | query (code : String)
  | profile (name chipset : String)
  | header (chip : String) (info : Info)
  | image (chip : String) (info : Info) (body : Bytes)
  | build (request : BuildRequest)
  | load (data : Bytes)
  | patch (position : Nat) (data : Bytes)
  | truncate (length : Nat)
  | inspect

/-- The state of one register. -/
structure RegisterState where
  value : Option String
  current : String
  edited : Bool
  preset : Option String
  accepted : Bool
  deriving DecidableEq, Repr

/-- Everything that can be told about a buffer. -/
structure Inspection where
  image : Except Error (Option SpiImage)
  records : Except Error (Option RecordTable)
  embedded : Option FirmwareInfo
  detected : Option FirmwareInfo

def inspect (data : Bytes) : Inspection where
  image := SpiImage.ofBytes? data
  records := RecordTable.ofBytes? data
  embedded := embeddedFirmware? data
  detected := detectFirmware? data

inductive Answer where
  | done
  | nothing
  | accepted (valid : Bool)
  | values (summary : Settings.ApplySummary)
  | writes (summary : Settings.WriteSummary)
  | plan (plan : Plan)
  | menu (menu : Menu)
  | register (state : RegisterState)
  | profile (profile : Profile)
  | bytes (data : Bytes)
  | built (image : BuiltImage)
  | length (n : Nat)
  | inspection (inspection : Inspection)

namespace Session

def start (catalog : Catalog) : Session :=
  ⟨catalog, .empty, []⟩

/-- The bytes from a position on replaced; those that would lie past the end are dropped. -/
def overwrite (buffer : Bytes) (position : Nat) (data : Bytes) : Bytes :=
  (buffer.take position ++ data ++ buffer.drop (position + data.length)).take buffer.length

def registerState (s : Settings) (r : Register) : RegisterState where
  value := s.value? r.code
  current := s.current r
  edited := s.isEdited r.code
  preset := s.preset? r.code
  accepted := r.accepts (s.current r)

/-- The compiled plan, and the session that remembers the menus. -/
def compiled (s : Session) : Plan × Session :=
  let (plan, catalog) := s.catalog.compile s.settings
  (plan, { s with catalog })

def applied (s : Session) (values : List (String × Scalar)) : Answer × Session :=
  let (settings, catalog, summary) := Settings.applyValues s.catalog values
  (.values summary, { s with settings, catalog })

def appliedWrites (s : Session) (writes : List DeviceWrite) : Answer × Session :=
  let (settings, catalog, summary) := s.settings.applyWrites s.catalog writes
  (.writes summary, { s with settings, catalog })

def setValue (s : Session) (code text : String) : Except Error Answer × Session :=
  match s.settings.setValue s.catalog code text with
  | .ok (valid, settings, catalog) => (.ok (.accepted valid), { s with settings, catalog })
  | .error e => (.error e, s)

def selectPreset (s : Session) (code label : String) : Except Error Answer × Session :=
  match s.settings.selectPreset s.catalog code label with
  | (.ok settings, catalog) => (.ok .done, { s with settings, catalog })
  | (.error e, catalog) => (.error e, { s with catalog })

/-- Values that are no scalars fail the whole step. -/
def applyValues (s : Session) (values : List (String × Json)) : Except Error Answer × Session :=
  match values.mapM fun e => (Scalar.ofJson? e.2).map (e.1, ·) with
  | none => (.error .malformedJson, s)
  | some values => let (answer, s) := s.applied values; (.ok answer, s)

def applyProfile (s : Session) (document : Json) : Answer × Session :=
  match profileValues? document s.catalog with
  | none => (.nothing, s)
  | some values => s.applied values

def applyImage (s : Session) : Except Error Answer × Session :=
  match RecordTable.ofBytes? s.buffer with
  | .error e => (.error e, s)
  | .ok none => (.ok .nothing, s)
  | .ok (some table) => let (answer, s) := s.appliedWrites table.writes; (.ok answer, s)

def replace (s : Session) (register : Json) : Except Error Answer × Session :=
  match Register.ofJson? register with
  | none => (.error .malformedJson, s)
  | some r =>
    match s.catalog.replace r with
    | .ok catalog => (.ok .done, { s with catalog })
    | .error e => (.error e, s)

def menu (s : Session) (code : String) : Answer × Session :=
  match s.catalog.register? code with
  | none => (.nothing, s)
  | some r => let (menu, catalog) := s.catalog.menu r; (.menu menu, { s with catalog })

def query (s : Session) (code : String) : Answer :=
  match s.catalog.register? code with
  | none => .nothing
  | some r => .register (registerState s.settings r)

def header (s : Session) (chip : String) (info : Info) : Except Error Bytes × Session :=
  let (plan, s) := s.compiled
  (Chip.resolve chip >>= fun chip => buildHeader chip info plan, s)

def image (s : Session) (chip : String) (info : Info) (body : Bytes) :
    Except Error Answer × Session :=
  let (plan, s) := s.compiled
  match Chip.resolve chip >>= fun chip =>
      (buildHeader chip info plan).map fun header => buildImage chip header body with
  | .ok data => (.ok (.bytes data), { s with buffer := data })
  | .error e => (.error e, s)

def build (s : Session) (request : BuildRequest) : Except Error Answer × Session :=
  let (plan, s) := s.compiled
  match buildOutput s.buffer plan request with
  | .ok (some image) => (.ok (.built image), { s with buffer := image.data })
  | .ok none => (.ok .nothing, s)
  | .error e => (.error e, s)

/-- A new buffer, and its length. -/
def buffered (s : Session) (data : Bytes) : Except Error Answer × Session :=
  (.ok (.length data.length), { s with buffer := data })

def step (s : Session) : Step → Except Error Answer × Session
  | .setValue code text => s.setValue code text
  | .selectPreset code label => s.selectPreset code label
  | .clearPreset code => (.ok .done, { s with settings := s.settings.clearPreset code })
  | .reset => (.ok .done, { s with settings := .empty })
  | .applyValues values => s.applyValues values
  | .applyProfile document => let (answer, s) := s.applyProfile document; (.ok answer, s)
  | .applyWrites writes => let (answer, s) := s.appliedWrites writes; (.ok answer, s)
  | .applyImage => s.applyImage
  | .compile => let (plan, s) := s.compiled; (.ok (.plan plan), s)
  | .replace register => s.replace register
  | .menu code => let (answer, s) := s.menu code; (.ok answer, s)
  | .query code => (.ok (s.query code), s)
  | .profile name chipset => (.ok (.profile (s.settings.toProfile name chipset)), s)
  | .header chip info => let (bytes, s) := s.header chip info; (bytes.map .bytes, s)
  | .image chip info body => s.image chip info body
  | .build request => s.build request
  | .load data => s.buffered data
  | .patch position data => s.buffered (overwrite s.buffer position data)
  | .truncate length => s.buffered (s.buffer.take length)
  | .inspect => (.ok (.inspection (inspect s.buffer)), s)

/-- The answer to each step with the session after it. -/
def run (s : Session) : List Step → List (Except Error Answer × Session)
  | [] => []
  | step :: steps =>
    let outcome := s.step step
    outcome :: run outcome.2 steps

end Session

end RegisterImage

/-
  File:      CodeAtlas/Failure.lean
  Subject:   Why a run, or a part of it, fails.

  * `NameFault`: why a text is not fit to be the name of an encoding.
  * `ReadFault`, `WriteFault`: why a file is not read or not written as a text.
  * `Failure`: the causes, each with what its message needs.
  * `Failure.message`: the wording of every cause.
  * `Failure.isContained`: which causes a run reports as its own failure; the
    others pass through it.
-/
import CodeAtlas.Decimal.Integer
import CodeAtlas.Template.Fault
import CodeAtlas.Text.Encoding
import CodeAtlas.Tree

namespace CodeAtlas

/-- Why a text cannot be the name of anything: it holds half a character, or the one that ends a
name. -/
inductive NameFault where
  | half (fault : HalfFault)
  | null
  deriving DecidableEq, Repr

namespace NameFault

/-- The wording of a fault. -/
def message : NameFault → Text
  | .half fault => fault.message
  | .null => "embedded null character"

/-- Checks a name. -/
def check (name : Text) : Except NameFault Unit :=
  match HalfFault.inText? name with
  | some fault => .error (.half fault)
  | none => if name.contains '\x00' then .error .null else .ok ()

end NameFault

/-- Why a file cannot be read as a text. -/
inductive ReadFault where
  | file (fault : FileFault)
  | decode (fault : DecodeFault)
  | unknownEncoding (name : Text)
  /-- The name of the encoding cannot be one. -/
  | encodingName (fault : NameFault)
  /-- UTF-16 whose byte order cannot be told. -/
  | noByteOrderMark
  /-- An encoding that is not spelled out here does not read it. -/
  | codec (fault : CodecFault)
  deriving DecidableEq, Repr

/-- Why a text cannot be written to a file. -/
inductive WriteFault where
  | file (fault : FileFault)
  | unknownEncoding (name : Text)
  /-- The name of the encoding cannot be one. -/
  | encodingName (fault : NameFault)
  /-- An encoding that is not spelled out here does not write it. -/
  | codec (fault : CodecFault)
  deriving DecidableEq, Repr

/-- The wording for an encoding that does not exist. -/
def unknownEncodingMessage (name : Text) : Text := "unknown encoding: " ++ name

/-- The wording of a fault in reading. -/
def ReadFault.message : ReadFault → Text
  | .file fault => fault.message
  | .decode fault => fault.message
  | .unknownEncoding name => unknownEncodingMessage name
  | .encodingName fault => fault.message
  | .noByteOrderMark => "UTF-16 stream does not start with BOM"
  | .codec fault => fault.message

/-- The wording of a fault in writing. -/
def WriteFault.message : WriteFault → Text
  | .file fault => fault.message
  | .unknownEncoding name => unknownEncodingMessage name
  | .encodingName fault => fault.message
  | .codec fault => fault.message

/-- The causes of failure. -/
inductive Failure where
  | sourceMissing (path : Path)
  | rootMissing (path : Path)
  | rootNotFolder (path : Path)
  | unreadable (path : Path) (fault : ReadFault)
  | unwritable (path : Path) (fault : WriteFault)
  /-- No folder of the search path holds the template. -/
  | templateMissing (name : Text) (folders : List Path)
  /-- The template is not well formed. -/
  | templateBroken (name why : Text)
  /-- The template cannot be filled in. -/
  | templateFailed (name why : Text)
  /-- A file or folder that no other cause speaks of. -/
  | file (fault : FileFault)
  /-- The text of a template cannot be decoded. -/
  | templateEncoding (fault : DecodeFault)
  /-- A template is nested too deep. -/
  | templateTooDeep (excess : Template.TooDeep)
  /-- A template is given a value that does not fit where it is used. -/
  | unfitValue (complaint : Template.Complaint) (message : Text)
  /-- UTF-16 whose byte order cannot be told. -/
  | noByteOrderMark
  /-- The name of an encoding cannot be one. -/
  | encodingName (fault : NameFault)
  /-- An encoding that is not spelled out here fails in a way that speaks of no file. -/
  | codec (fault : CodecFault)
  /-- A version number has more digits than are read. -/
  | longVersion (digits : Nat)
  /-- Types or comments are nested too deep for the work that goes down them. -/
  | tooDeep
  /-- The filling in of a template is broken off, or the question which version a tool has. A cause
  can be one of the operating system. -/
  | brokenOff (ofSystem : Bool) (why : Text)
  /-- The languages cannot be put together. -/
  | discovery (error : DiscoveryError)
  /-- A run failed for one of the causes it contains. -/
  | run (cause : Failure)
  deriving Repr

namespace Failure

/-- The wording of a cause. -/
def message : Failure → Text
  | .sourceMissing path => path.toText ++ " does not exist!"
  | .rootMissing path => "Source directory not found: " ++ path.toText
  | .rootNotFolder path => "Source path is not a directory: " ++ path.toText
  | .unreadable path fault => "Unable to read " ++ path.toText ++ ": " ++ fault.message
  | .unwritable path fault => "Unable to write " ++ path.toText ++ ": " ++ fault.message
  | .templateMissing name folders =>
    "Template '" ++ name ++ "' not found in " ++ Text.join ", " (folders.map Path.toText)
  | .templateBroken name why => "Unable to load template '" ++ name ++ "': " ++ why
  | .templateFailed name why => "Unable to render template '" ++ name ++ "': " ++ why
  | .file fault => fault.message
  | .templateEncoding fault => fault.message
  | .templateTooDeep excess => excess.message
  | .unfitValue _ message => message
  | .noByteOrderMark => ReadFault.noByteOrderMark.message
  | .encodingName fault => fault.message
  | .codec fault => fault.message
  | .longVersion digits => Decimal.tooLongMessage digits
  | .tooDeep => tooDeepMessage
  | .brokenOff _ why => why
  | .discovery error => error.message
  | .run cause => "Cross-reference generation failed: " ++ cause.message

/-- Whether a run reports the cause as its own failure. Texts that cannot be decoded, outside
the reading of sources, names that cannot be those of encodings or files, numbers that are too
long, sources and templates that are nested too deep, values that do not fit in templates, home
folders that are not known and languages that cannot be put together pass through. -/
def isContained : Failure → Bool
  | .templateEncoding _ | .templateTooDeep _ | .unfitValue .. | .noByteOrderMark
  | .encodingName _ | .codec _ | .longVersion _ | .tooDeep => false
  | .file fault => fault.isOfSystem
  | .brokenOff ofSystem _ => ofSystem
  | .discovery (.failing origin _) => origin != .elsewhere
  | .discovery _ => false
  | _ => true

/-- A cause as it leaves a run. -/
def leaving (failure : Failure) : Failure :=
  if failure.isContained then .run failure else failure

/-- Whether a cause has a name in this program. Those of the operating system have none. -/
def isNamed : Failure → Bool
  | .file _ | .brokenOff .. => false
  | .discovery (.failing origin _) => origin == .program
  | .discovery _ => false
  | failure => failure.isContained

/-- A source is not read: the cause that speaks of its path, unless the fault passes through. -/
def ofReading (path : Path) : ReadFault → Failure
  | .noByteOrderMark => .noByteOrderMark
  | .encodingName fault => .encodingName fault
  | .file fault => if fault.isOfSystem then .unreadable path (.file fault) else .file fault
  | .codec (.other why) => .codec (.other why)
  | fault => .unreadable path fault

/-- A file is not written: the cause that speaks of its path, unless the fault passes through. -/
def ofWriting (path : Path) : WriteFault → Failure
  | .encodingName fault => .encodingName fault
  | .file fault => if fault.isOfSystem then .unwritable path (.file fault) else .file fault
  | .codec (.notForTexts why) => .unwritable path (.codec (.notForTexts why))
  | .codec fault => .codec fault
  | fault => .unwritable path fault

end Failure

/-! ## Reading and writing texts -/

namespace Tree

variable [Platform]

/-- Reads a file as a text, with line feeds as its line breaks. The name of the encoding must be
fit to be one; otherwise the file must be there before the name matters. -/
def readText (tree : Tree) (path : Path) (encoding : Text) :
    Except ReadFault Text := do
  (NameFault.check encoding).mapError .encodingName
  let bytes ← (tree.read path).mapError .file
  match Encoding.named? encoding, Platform.codec? encoding with
  | none, none => .error (.unknownEncoding encoding)
  | none, some codec => ((codec.decode bytes).map Text.unifyBreaks).mapError .codec
  | some known, _ =>
    match known.decode bytes with
    | .ok text => .ok (Text.unifyBreaks text)
    | .error (.decode fault) => .error (.decode fault)
    | .error .noByteOrderMark => .error .noByteOrderMark

/-- Reads the text of a source. -/
def readSource (tree : Tree) (path : Path) (encoding : Text) : Except Failure Text :=
  (tree.readText path encoding).mapError (.ofReading path)

/-- The bytes of a text in the encoding of a name. -/
def bytesOf (encoding : Text) (text : Text) : Except WriteFault Bytes :=
  match Encoding.named? encoding, Platform.codec? encoding with
  | some known, _ => .ok (known.encode text)
  | none, some codec => (codec.encode text).mapError .codec
  | none, none => .error (.unknownEncoding encoding)

/-- Writes a text. The file is made, and emptied, before the encoding matters, if its name is fit
to be one. -/
def writeText (tree : Tree) (path : Path) (encoding : Text) (text : Text) :
    Tree × Except WriteFault Unit :=
  match NameFault.check encoding, bytesOf encoding text with
  | .error fault, _ => (tree, .error (.encodingName fault))
  | .ok (), .ok bytes =>
    match tree.write path bytes with
    | .ok written => (written, .ok ())
    | .error fault => (tree, .error (.file fault))
  | .ok (), .error unfit =>
    match tree.write path [] with
    | .ok emptied => (emptied, .error unfit)
    | .error fault => (tree, .error (.file fault))

/-- Writes a text into a folder that is made if it is missing. -/
def publish (tree : Tree) (path : Path) (encoding : Text) (text : Text) :
    Tree × Except Failure Unit :=
  match tree.makeFolders path.parent with
  | (made, .error fault) => (made, .error (.ofWriting path (.file fault)))
  | (made, .ok ()) =>
    match made.writeText path encoding text with
    | (written, .ok ()) => (written, .ok ())
    | (written, .error fault) => (written, .error (.ofWriting path fault))

end Tree

end CodeAtlas

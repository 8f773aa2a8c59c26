import InteractiveProxy.GoText
import Mathlib.Data.List.DropRight

/-! The translation between a project root and its alias. An absolute path is split into its spelled
volume and the untouched rest; an alias has a fixed marker at its head, in each flavor, and after it
the tag of a workspace. -/
namespace InteractiveProxy.PathVirtualization

open GoText

inductive PathFlavor
  | posix
  | windowsDrive
  | windowsUNC
  | windowsExtendedDrive
  | windowsExtendedUNC
  deriving DecidableEq

inductive SkipReason
  | emptyRoot
  | relativeRoot
  | malformedVolumeRoot
  | deviceNamespace
  | reservedNamespaceCollision
  deriving DecidableEq

structure ParsedPath where
  flavor : PathFlavor
  root : GoStr
  rest : GoStr
  deriving DecidableEq

def slash : UInt8 := 0x2F
def backslash : UInt8 := 0x5C
def driveColon : UInt8 := 0x3A
def extendedQuery : UInt8 := 0x3F

def uncAnchor : GoStr := [backslash, backslash]
/-- The anchor of the extended namespace, `\\?\`. -/
@[simp] def extendedAnchor : GoStr := [backslash, backslash, extendedQuery, backslash]
def uncMarker : GoStr := [0x55, 0x4E, 0x43]

def isSeparator (c : UInt8) : Bool := c = slash || c = backslash

def isASCIILetter (c : UInt8) : Bool := (0x61 ≤ c && c ≤ 0x7A) || (0x41 ≤ c && c ≤ 0x5A)

def toUpperASCII (c : UInt8) : UInt8 := if 0x61 ≤ c ∧ c ≤ 0x7A then c - 0x20 else c

def takeSegment (body : GoStr) : GoStr × GoStr :=
  (body.takeWhile fun c => !isSeparator c, body.dropWhile fun c => !isSeparator c)

def trimLeadingSeparators (s : GoStr) : GoStr := s.dropWhile isSeparator

def hasPrefixFoldASCII (s wanted : GoStr) : Bool :=
  (s.take wanted.length).map lowerByte = wanted.map lowerByte

/-- The volume `server\share` at the front of a share's body; both names are there. -/
def uncVolume (body : GoStr) : Option (GoStr × GoStr) :=
  match takeSegment body with
  | (server, sep :: share) =>
    match takeSegment share with
    | (name, rest) => if server = [] ∨ name = [] then none else some (server ++ sep :: name, rest)
  | (_, []) => none

/-- What follows `\\?\`. -/
@[simp] def classifyExtendedPath (body : GoStr) : Except SkipReason ParsedPath :=
  if body = [] then .error .malformedVolumeRoot
  else if hasPrefixFoldASCII body uncMarker then
    match body.drop uncMarker.length with
    | [] => .error .malformedVolumeRoot
    | sep :: tail =>
      if isSeparator sep = false then .error .malformedVolumeRoot
      else
        match uncVolume tail with
        | none => .error .malformedVolumeRoot
        | some (volume, rest) =>
          .ok ⟨.windowsExtendedUNC, extendedAnchor ++ body.take uncMarker.length ++ sep :: volume, rest⟩
  else
    match body with
    | letter :: colon :: tail =>
      if isASCIILetter letter = false ∨ colon ≠ driveColon then .error .deviceNamespace
      else
        match tail with
        | [] => .error .malformedVolumeRoot
        | sep :: _ =>
          if isSeparator sep = false then .error .malformedVolumeRoot
          else .ok ⟨.windowsExtendedDrive, extendedAnchor ++ [letter, colon], tail⟩
    | _ => .error .deviceNamespace

@[simp] def classifyWindowsPath : GoStr → Except SkipReason ParsedPath
  | [] => .error .relativeRoot
  | second :: body =>
    if second ≠ backslash then .error .relativeRoot
    else if [extendedQuery, backslash].isPrefixOf body then classifyExtendedPath (body.drop 2)
    else if body = [0x2E] ∨ [0x2E, backslash].isPrefixOf body then .error .deviceNamespace
    else
      match uncVolume body with
      | none => .error .malformedVolumeRoot
      | some (volume, rest) => .ok ⟨.windowsUNC, uncAnchor ++ volume, rest⟩

def classifyPath : GoStr → Except SkipReason ParsedPath
  | [] => .error .emptyRoot
  | first :: tail =>
    if first = slash then .ok ⟨.posix, [slash], tail⟩
    else if first = backslash then classifyWindowsPath tail
    else
      match tail with
      | [] => .error .relativeRoot
      | colon :: rest =>
        if isASCIILetter first = false ∨ colon ≠ driveColon then .error .relativeRoot
        else
          match rest with
          | [] => .error .malformedVolumeRoot
          | sep :: _ =>
            if isSeparator sep = false then .error .relativeRoot
              else .ok ⟨.windowsDrive, [first, colon], rest⟩

/-- The marker, `.__lip_v1__`. -/
def reservedNamespaceV1 : GoStr :=
    [0x2E, 0x5F, 0x5F, 0x6C, 0x69, 0x70, 0x5F, 0x76, 0x31, 0x5F, 0x5F]
/-- What introduces a tag, `w_`. -/
def tagPrefix : GoStr := [0x77, 0x5F]
def workspaceTagChars : ℕ := 20

structure ReservedAlias where
  flavor : PathFlavor
  drive : UInt8 := 0
  tag : GoStr := []
  rest : GoStr := []
  wellFormed : Bool := false
  deriving DecidableEq

def equalWindowsByte (a b : UInt8) : Bool :=
  if a = b then true else if isSeparator a && isSeparator b then true else lowerByte a = lowerByte b

variable (flavor : PathFlavor)

/-- Segments under the rules of a flavor: exact for POSIX, up to ASCII case and the kind of
separator for Windows. -/
def segmentEqual (got want : GoStr) : Bool :=
  if got.length ≠ want.length then false
  else if flavor = .posix then got = want
  else (want.zip got).all fun (w, g) => equalWindowsByte w g

def isTagChar (c : UInt8) : Bool :=
  if 0x32 ≤ c ∧ c ≤ 0x37 then true
  else if 0x61 ≤ c ∧ c ≤ 0x7A then true
  else flavor ≠ .posix && 0x41 ≤ c && c ≤ 0x5A

def reservedWorkspaceTag (segment : GoStr) : Option GoStr :=
  if segment.length ≠ tagPrefix.length + workspaceTagChars then none
  else if segmentEqual flavor (segment.take tagPrefix.length) tagPrefix = false then none
  else if (segment.drop tagPrefix.length).all (isTagChar flavor) then
    some (segment.drop tagPrefix.length)
  else none

def aliasDrive (volume : GoStr) : UInt8 :=
  let letterOf : GoStr → UInt8
    | letter :: colon :: _ => if colon = driveColon then toUpperASCII letter else 0
    | _ => 0
  match flavor with
  | .windowsDrive => letterOf volume
  | .windowsExtendedDrive => letterOf (volume.drop extendedAnchor.length)
  | _ => 0

/-- The body `server\share` of a volume that was classified as a share. -/
def validatedUNCBody (volume : GoStr) : GoStr :=
  if flavor = .windowsExtendedUNC then volume.drop (extendedAnchor.length + uncMarker.length + 1)
  else volume.drop uncAnchor.length

variable (base : ReservedAlias)

def parseAliasTag (tagSegment suffix : GoStr) : ReservedAlias :=
  match reservedWorkspaceTag base.flavor tagSegment with
  | none => base
  | some tag => { base with tag, rest := suffix, wellFormed := true }

/-- The marker as a segment of `body`, with the tag in the segment after it. -/
def parseMarker (body : GoStr) : Option ReservedAlias :=
  if segmentEqual base.flavor (takeSegment body).1 reservedNamespaceV1 = false then none
  else
    let (tag, suffix) := takeSegment (trimLeadingSeparators (takeSegment body).2)
    some (parseAliasTag base tag suffix)

def parseSegmentReservedAlias (parsed : ParsedPath) : Option ReservedAlias :=
  parseMarker base (trimLeadingSeparators parsed.rest)

def parseVolumeReservedAlias (parsed : ParsedPath) : Option ReservedAlias :=
  let (server, rest) := takeSegment (validatedUNCBody parsed.flavor parsed.root)
  if segmentEqual base.flavor server reservedNamespaceV1 = false then none
  else some (parseAliasTag base (takeSegment (trimLeadingSeparators rest)).1 parsed.rest)

def parseAliasRootPosition (parsed : ParsedPath) : Option ReservedAlias :=
  let base : ReservedAlias :=
    { flavor := parsed.flavor, drive := aliasDrive parsed.flavor parsed.root }
  match parsed.flavor with
  | .windowsUNC | .windowsExtendedUNC => parseVolumeReservedAlias base parsed
  | _ => parseSegmentReservedAlias base parsed

/-- A drive at the front of `s` with a separator after it: its letter, and the segments that follow.
-/
def driveVolumeAt : GoStr → Option (UInt8 × GoStr)
  | letter :: colon :: sep :: tail =>
    if isASCIILetter letter = false ∨ colon ≠ driveColon ∨ isSeparator sep = false then none
    else some (toUpperASCII letter, trimLeadingSeparators (sep :: tail))
  | _ => none

/-- What follows the `?` of an extended volume. -/
def scanExtendedLookalikeHead : GoStr → Option (ReservedAlias × GoStr)
  | [] => none
  | sep :: tail =>
    if isSeparator sep = false then none
    else
      let next := trimLeadingSeparators (sep :: tail)
      match driveVolumeAt next with
      | some (drive, body) => some ({ flavor := .windowsExtendedDrive, drive }, body)
      | none =>
        if hasPrefixFoldASCII next uncMarker = false then none
        else
          match next.drop uncMarker.length with
          | [] => none
          | sep :: tail =>
            if isSeparator sep = false then none
            else some ({ flavor := .windowsExtendedUNC }, trimLeadingSeparators (sep :: tail))

def scanVolumeLookalikeHead (path : GoStr) : Option (ReservedAlias × GoStr) :=
  match path with
  | [] => none
  | first :: _ =>
    if isSeparator first = false then none
    else
      match trimLeadingSeparators path with
      | [] => none
      | c :: tail =>
        if c = extendedQuery then scanExtendedLookalikeHead tail
        else
          match driveVolumeAt (c :: tail) with
          | some (drive, body) => some ({ flavor := .windowsDrive, drive }, body)
          | none => none

def parseVolumeLookalikeAlias (path : GoStr) : Option ReservedAlias :=
  match scanVolumeLookalikeHead path with
  | some (base, body) => parseMarker base body
  | none => none

def parseReservedAlias (path : GoStr) : Option ReservedAlias :=
  match classifyPath path with
  | .error _ => none
  | .ok parsed =>
    match parseAliasRootPosition parsed with
    | some base => some base
    | none => parseVolumeLookalikeAlias path

structure Mapping where
  flavor : PathFlavor
  realRoot : GoStr
  workspaceTag : GoStr
  virtualRoot : GoStr
  deriving DecidableEq

inductive ExpandResult
  | notApplicable
  | expanded
  | malformedReservedAlias
  | workspaceMismatch
  deriving DecidableEq

def bitsOf (b : UInt8) : List Bool := (List.range 8).map fun i => b.toNat.testBit (7 - i)

def base32Digit (bits : List Bool) : UInt8 :=
  let value :=
    (bits ++ List.replicate (5 - bits.length) false).foldl (fun n bit => 2 * n + bit.toNat) 0
  if value < 26 then UInt8.ofNat (0x41 + value) else UInt8.ofNat (0x32 + (value - 26))

def base32 : List Bool → GoStr
  | a :: b :: c :: d :: e :: rest => base32Digit [a, b, c, d, e] :: base32 rest
  | [] => []
  | short => [base32Digit short]

/-- `FormatUint` of the number of a flavor. -/
def flavorID : PathFlavor → GoStr
  | .posix => [0x31]
  | .windowsDrive => [0x32]
  | .windowsUNC => [0x33]
  | .windowsExtendedDrive => [0x34]
  | .windowsExtendedUNC => [0x35]

/-- `workspaceTag`, over the digest. -/
def workspaceTag (sha256 : GoStr → Fin 32 → UInt8) (flavor : PathFlavor) (identity : GoStr) :
    GoStr :=
  let digest := sha256 (lit "lip:path-virtualization:v1" ++ 0 :: flavorID flavor ++ 0 :: identity)
  (base32 ((List.ofFn fun i : Fin 12 => digest (i.castLE (by decide))).flatMap bitsOf)).map lowerByte

def isFlavorSeparator (flavor : PathFlavor) (b : UInt8) : Bool :=
  if flavor = .posix then b = slash else isSeparator b

def matchableRoot (root : GoStr) : GoStr :=
  match classifyPath root with
  | .error _ => root
  | .ok parsed => parsed.root ++ parsed.rest.rdropWhile (isFlavorSeparator parsed.flavor)

def normalizeWindowsIdentity (s : GoStr) : GoStr :=
  s.map fun c => lowerByte (if c = slash then backslash else c)

def canonicalRootIdentity (parsed : ParsedPath) : GoStr :=
  let joined := parsed.root ++ parsed.rest
  if parsed.flavor = .posix then
    let trimmed := joined.rdropWhile (· = slash)
    if trimmed = [] then [slash] else trimmed
  else
    let identity := normalizeWindowsIdentity joined
    -- The separator after a drive belongs to its volume.
    let volumeLen :=
      if parsed.flavor = .windowsDrive ∨ parsed.flavor = .windowsExtendedDrive then
        parsed.root.length + 1
      else parsed.root.length
    identity.take volumeLen ++ (identity.drop volumeLen).rdropWhile (· = backslash)

def aliasSegments (sep : UInt8) (tag : GoStr) : GoStr :=
  reservedNamespaceV1 ++ sep :: tagPrefix ++ tag ++ [sep]

def virtualRoot (parsed : ParsedPath) (tag : GoStr) : GoStr :=
  match parsed.flavor with
  | .posix => slash :: aliasSegments slash tag
  | .windowsDrive =>
    toUpperASCII (parsed.root.headD 0) :: driveColon :: backslash :: aliasSegments backslash tag
  | .windowsUNC => uncAnchor ++ aliasSegments backslash tag
  | .windowsExtendedDrive =>
    extendedAnchor ++ toUpperASCII ((parsed.root.drop extendedAnchor.length).headD 0) :: driveColon :: backslash ::
      aliasSegments backslash tag
  | .windowsExtendedUNC => extendedAnchor ++ uncMarker ++ backslash :: aliasSegments backslash tag

def deriveMapping (sha256 : GoStr → Fin 32 → UInt8) (projectRoot : GoStr) :
    Except SkipReason Mapping :=
  match classifyPath projectRoot with
  | .error reason => .error reason
  | .ok parsed =>
    if (parseReservedAlias projectRoot).isSome then .error .reservedNamespaceCollision
    else
      let realRoot := parsed.root ++ parsed.rest
      let tag := workspaceTag sha256 parsed.flavor (canonicalRootIdentity parsed)
      let short := virtualRoot parsed tag
      let active := short.length < realRoot.length && short.length < (matchableRoot realRoot).length
      .ok ⟨parsed.flavor, realRoot, tag, if active then short else []⟩

def stripRootPrefix (path : GoStr) (flavor : PathFlavor) (root : GoStr) : Option GoStr :=
  if root = [] ∨ path.length < root.length then none
  else if segmentEqual flavor (path.take root.length) root = false then none
  else
    match path.drop root.length with
    | [] => some []
    | sep :: tail => if isFlavorSeparator flavor sep then some (sep :: tail) else none

def joinRootSuffix (flavor : PathFlavor) (root suffix : GoStr) : GoStr :=
  match suffix with
  | [] => root
  | sep :: tail =>
    if root.getLast?.any (isFlavorSeparator flavor) then root ++ tail else root ++ sep :: tail

namespace Mapping

variable (m : Mapping)

def virtualizePath (path : GoStr) : Option GoStr :=
  if m.virtualRoot = [] then none
  else
    match stripRootPrefix path m.flavor (matchableRoot m.realRoot) with
    | none => none
    | some [] => some m.virtualRoot
    -- The alias ends with a separator already.
    | some suffix => some (m.virtualRoot.dropLast ++ suffix)

def names (a : ReservedAlias) : Bool :=
  a.flavor = m.flavor && a.drive = aliasDrive m.flavor m.realRoot && m.virtualRoot ≠ [] &&
    segmentEqual a.flavor a.tag m.workspaceTag

def expandReservedAlias (a : ReservedAlias) : GoStr × ExpandResult :=
  if a.wellFormed = false then ([], .malformedReservedAlias)
  else if m.names a = false then ([], .workspaceMismatch)
  else (joinRootSuffix m.flavor m.realRoot a.rest, .expanded)

def expandPath (path : GoStr) : GoStr × ExpandResult :=
  match parseReservedAlias path with
  | some a => m.expandReservedAlias a
  | none =>
    if m.virtualRoot = [] then (path, .notApplicable)
    else
      match stripRootPrefix path m.flavor (matchableRoot m.virtualRoot) with
      | none => (path, .notApplicable)
      | some suffix => (joinRootSuffix m.flavor m.realRoot suffix, .expanded)

end Mapping

end InteractiveProxy.PathVirtualization

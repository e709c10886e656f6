import Mathlib.Data.List.Basic
import Mathlib.Data.List.Infix
import Mathlib.Tactic.Common

/-! Resolution of a reference against an `http` or `https` base, as in the URL
Standard. The reference has no query and no fragment, and no character that
would be stripped before parsing. -/

namespace UrlReference

inductive Scheme where
  | http
  | https
  deriving DecidableEq, Repr

abbrev Segment := { name : List Char // '/' ∉ name }

def Segment.empty : Segment := ⟨[], List.not_mem_nil⟩

/-- The last segment of a path is its file, the others its directories. -/
structure Path where
  directories : List Segment
  file : Segment
  deriving DecidableEq

structure Authority where
  userinfo : List Char
  host : List Char
  port : Option Nat
  deriving DecidableEq, Repr

structure Url where
  scheme : Scheme
  authority : Authority
  path : Path
  query : Option (List Char)
  deriving DecidableEq

/-- The parts of the standard that are not about references: the parsing of an
authority, the percent-encoding of a segment, and what other schemes accept. -/
structure Rules where
  parseAuthority : Scheme → List Char → Except String Authority
  encode : Segment → Segment
  foreign : List Char → Except String Unit

def isSlash (char : Char) : Bool := char = '/' || char = '\\'

def isSchemeChar (char : Char) : Bool :=
  char.isAlphanum || char = '+' || char = '-' || char = '.'

/-- A leading scheme in lower case, and what follows its colon. -/
def splitScheme (text : List Char) : Option (List Char × List Char) :=
  if text.head?.any Char.isAlpha then
    match text.dropWhile isSchemeChar with
    | ':' :: rest => some ((text.takeWhile isSchemeChar).map Char.toLower, rest)
    | _ => none
  else none

def Scheme.named (name : List Char) : Option Scheme :=
  if name = ['h', 't', 't', 'p'] then some .http
  else if name = ['h', 't', 't', 'p', 's'] then some .https
  else none

/-- What a reference starts with decides what it keeps of the base. -/
inductive Form where
  | sameDocument
  | relative (path : List Char)
  | rooted (path : List Char)
  | network (scheme : Scheme) (authority path : List Char)
  | foreign (text : List Char)
  deriving DecidableEq, Repr

/-- The authority ends at the first slash, and the path begins behind it. -/
def networkForm (scheme : Scheme) (text : List Char) : Form :=
  .network scheme (text.takeWhile fun char => !isSlash char)
    ((text.dropWhile fun char => !isSlash char).drop 1)

/-- A reference without a scheme, or with that of the base. -/
def schemelessForm (base : Scheme) : List Char → Form
  | [] => .sameDocument
  | first :: rest =>
      if isSlash first then
        if rest.head?.any isSlash then networkForm base (rest.dropWhile isSlash)
        else .rooted rest
      else .relative (first :: rest)

def form (base : Scheme) (text : List Char) : Form :=
  match splitScheme text with
  | none => schemelessForm base text
  | some (name, rest) =>
      match Scheme.named name with
      | none => .foreign text
      | some scheme =>
          if scheme = base ∧ (rest.takeWhile isSlash).length < 2 then schemelessForm base rest
          else networkForm scheme (rest.dropWhile isSlash)

theorem not_slash {char : Char} (other : ¬ isSlash char = true) : '/' ≠ char := by
  rintro rfl
  exact other rfl

def segments : List Char → Segment × List Segment
  | [] => (.empty, [])
  | char :: text =>
      let behind := segments text
      if slash : isSlash char then (.empty, behind.1 :: behind.2)
      else
        (⟨char :: behind.1.1, List.not_mem_cons_of_ne_of_not_mem (not_slash slash) behind.1.2⟩,
          behind.2)

def isDoubleDot (segment : Segment) : Bool :=
  [['.', '.'], ['.', '%', '2', 'e'], ['%', '2', 'e', '.'],
    ['%', '2', 'e', '%', '2', 'e']].contains (segment.1.map Char.toLower)

def isSingleDot (segment : Segment) : Bool :=
  [['.'], ['%', '2', 'e']].contains (segment.1.map Char.toLower)

def lastSegment (text : List Char) : Segment := (segments text).2.getLastD (segments text).1

/-- The segments that name directories: a final dot segment names one too. -/
def directorySegments (text : List Char) : List Segment :=
  let all := (segments text).1 :: (segments text).2
  if isDoubleDot (lastSegment text) || isSingleDot (lastSegment text) then all else all.dropLast

namespace Rules

variable (rules : Rules)

/-- `..` leaves a directory, unless at the root; `.` stays. -/
def enter (directories : List Segment) (segment : Segment) : List Segment :=
  if isDoubleDot segment then directories.dropLast
  else if isSingleDot segment then directories
  else directories ++ [rules.encode segment]

def walk (start names : List Segment) : List Segment := names.foldl rules.enter start

def fileSegment (text : List Char) : Segment :=
  if isDoubleDot (lastSegment text) || isSingleDot (lastSegment text) then .empty
  else rules.encode (lastSegment text)

def resolvePath (start : List Segment) (text : List Char) : Path :=
  ⟨rules.walk start (directorySegments text), rules.fileSegment text⟩

/-- A reference with another scheme resolves to no `http` URL. -/
def resolve (base : Url) : Form → Except String (Option Url)
  | .sameDocument => .ok (some base)
  | .relative path =>
      .ok (some { base with path := rules.resolvePath base.path.directories path, query := none })
  | .rooted path => .ok (some { base with path := rules.resolvePath [] path, query := none })
  | .network scheme authority path =>
      (rules.parseAuthority scheme authority).map fun named =>
        some ⟨scheme, named, rules.resolvePath [] path, none⟩
  | .foreign text => (rules.foreign text).map fun _ => none

def join (base : Url) (text : List Char) : Except String (Option Url) :=
  rules.resolve base (form base.scheme text)

/-- How far a walk climbs above where it starts, and the directories it then
enters and stays in. -/
structure Descent where
  ups : Nat
  names : List Segment

def descendStep (descent : Descent) (segment : Segment) : Descent :=
  if isDoubleDot segment then
    if descent.names = [] then ⟨descent.ups + 1, []⟩
    else ⟨descent.ups, descent.names.dropLast⟩
  else if isSingleDot segment then descent
  else ⟨descent.ups, descent.names ++ [rules.encode segment]⟩

def descent (names : List Segment) : Descent := names.foldl rules.descendStep ⟨0, []⟩

variable {rules}

theorem walk_snoc (start names : List Segment) (segment : Segment) :
    rules.walk start (names ++ [segment]) = rules.enter (rules.walk start names) segment := by
  simp only [walk, List.foldl_append, List.foldl_cons, List.foldl_nil]

theorem descent_snoc (names : List Segment) (segment : Segment) :
    rules.descent (names ++ [segment]) = rules.descendStep (rules.descent names) segment := by
  simp only [descent, List.foldl_append, List.foldl_cons, List.foldl_nil]

theorem walk_descent (start names : List Segment) :
    rules.walk start names =
      start.take (start.length - (rules.descent names).ups) ++ (rules.descent names).names := by
  induction names using List.reverseRecOn with
  | nil => simp [walk, descent]
  | append_singleton names segment ih =>
      rw [walk_snoc, descent_snoc, ih, enter, descendStep]
      by_cases double : isDoubleDot segment = true
      · rw [if_pos double, if_pos double]
        by_cases above : (rules.descent names).names = []
        · rw [if_pos above, above, List.append_nil, List.append_nil, List.dropLast_eq_take,
            List.take_take, List.length_take]
          congr 1
          simp only
          omega
        · rw [if_neg above, List.dropLast_append_of_ne_nil above]
      · rw [if_neg double, if_neg double]
        split
        · rfl
        · rw [List.append_assoc]

/-- A walk ends inside the directory it starts in exactly when it enters again what it
climbed out of. -/
theorem walk_inside (start names : List Segment) :
    start <+: rules.walk start names ↔
      start.drop (start.length - (rules.descent names).ups) <+: (rules.descent names).names := by
  have split := List.take_append_drop (start.length - (rules.descent names).ups) start
  rw [walk_descent]
  conv_lhs => lhs; rw [← split]
  exact List.prefix_append_right_inj _

end Rules

def directoryText (segment : Segment) : List Char := segment.1 ++ ['/']

def Path.text (path : Path) : List Char :=
  '/' :: path.directories.flatMap directoryText ++ path.file.1

theorem before_slash (segment : Segment) (rest : List Char) :
    (segment.1 ++ '/' :: rest).takeWhile (· ≠ '/') = segment.1 := by
  have none : ∀ char ∈ segment.1, (decide (char ≠ '/')) = true := by
    intro char member
    apply decide_eq_true
    rintro rfl
    exact segment.2 member
  rw [List.takeWhile_append_of_pos none, List.takeWhile_cons_of_neg (by simp), List.append_nil]

theorem segment_inside {first second : Segment} {rest rest' : List Char} :
    first.1 ++ '/' :: rest <+: second.1 ++ '/' :: rest' ↔ first = second ∧ rest <+: rest' := by
  constructor
  · rintro ⟨more, same⟩
    rw [List.append_assoc, List.cons_append] at same
    have names : first.1 = second.1 := by
      calc
        first.1 = (first.1 ++ '/' :: (rest ++ more)).takeWhile (· ≠ '/') := (before_slash _ _).symm
        _ = (second.1 ++ '/' :: rest').takeWhile (· ≠ '/') := by rw [same]
        _ = second.1 := before_slash _ _
    rw [names] at same
    have behind := List.cons_injective (List.append_cancel_left same)
    exact ⟨Subtype.ext names, more, behind⟩
  · rintro ⟨rfl, inside⟩
    exact (List.prefix_append_right_inj _).mpr ((List.cons_prefix_cons).mpr ⟨rfl, inside⟩)

theorem directories_inside (base directories : List Segment) (file : Segment) :
    base.flatMap directoryText <+: directories.flatMap directoryText ++ file.1 ↔
      base <+: directories := by
  induction base generalizing directories with
  | nil => simp
  | cons name base ih =>
      cases directories with
      | nil =>
          constructor
          · intro inside
            have slash : '/' ∈ file.1 := inside.subset (by simp [directoryText])
            exact absurd slash file.2
          · intro inside
            exact absurd (List.prefix_nil.mp inside) (List.cons_ne_nil _ _)
      | cons other directories =>
          simp only [List.flatMap_cons, directoryText, List.append_assoc, List.cons_append, List.nil_append]
          rw [segment_inside, List.cons_prefix_cons]
          exact and_congr_right fun _ => ih directories

/-- Slashes only separate segments, so a path that ends in a slash is a beginning of
another as text exactly when it is one by its directories. -/
theorem text_inside {base path : Path} (directory : base.file = .empty) :
    base.text <+: path.text ↔ base.directories <+: path.directories := by
  rw [Path.text, directory, Path.text]
  simp only [Segment.empty, List.append_nil, List.cons_append]
  rw [List.cons_prefix_cons]
  simp only [true_and]
  exact directories_inside _ _ _

/-- Same scheme, host and port, and a path below that of the base. -/
def Inside (base url : Url) : Prop :=
  url.scheme = base.scheme ∧ url.authority.host = base.authority.host ∧
    url.authority.port = base.authority.port ∧ base.path.text <+: url.path.text

namespace Rules

variable (rules : Rules)

/-- The reference starts in the directory of the base and enters again what it climbs
out of; or it starts at the root and descends into that directory, of the same
server if it names one. -/
def Stays (base : Url) : Form → Prop
  | .sameDocument | .foreign _ => True
  | .relative path =>
      base.path.directories.drop
        (base.path.directories.length - (rules.descent (directorySegments path)).ups) <+:
          (rules.descent (directorySegments path)).names
  | .rooted path => base.path.directories <+: (rules.descent (directorySegments path)).names
  | .network scheme authority path =>
      ∀ named, rules.parseAuthority scheme authority = .ok named →
        scheme = base.scheme ∧ named.host = base.authority.host ∧
          named.port = base.authority.port ∧
            base.path.directories <+: (rules.descent (directorySegments path)).names

variable {rules}

instance decidableStays (base : Url) : (form : Form) → Decidable (rules.Stays base form)
  | .sameDocument | .foreign _ => isTrue trivial
  | .relative _ | .rooted _ => inferInstanceAs (Decidable (_ <+: _))
  | .network scheme authority path =>
      match parsed : rules.parseAuthority scheme authority with
      | .error _ => isTrue (by simp [Stays, parsed])
      | .ok named =>
          decidable_of_iff (scheme = base.scheme ∧ named.host = base.authority.host ∧
            named.port = base.authority.port ∧
              base.path.directories <+: (rules.descent (directorySegments path)).names)
            (by simp [Stays, parsed])

theorem walk_root (names : List Segment) : rules.walk [] names = (rules.descent names).names := by
  rw [walk_descent, List.take_nil, List.nil_append]

theorem resolve_inside {base : Url} (directory : base.path.file = .empty) (form : Form) :
    (∀ url, rules.resolve base form = .ok (some url) → Inside base url) ↔ rules.Stays base form := by
  cases form with
  | sameDocument =>
      simp only [resolve, Except.ok.injEq, Option.some.injEq, forall_eq', Stays, iff_true]
      exact ⟨rfl, rfl, rfl, List.prefix_rfl⟩
  | relative path =>
      simp only [resolve, Except.ok.injEq, Option.some.injEq, forall_eq', Stays, Inside, true_and]
      rw [text_inside directory]
      exact walk_inside _ _
  | rooted path =>
      simp only [resolve, Except.ok.injEq, Option.some.injEq, forall_eq', Stays, Inside, true_and]
      rw [text_inside directory, ← walk_root]
      rfl
  | network scheme authority path =>
      simp only [resolve, Stays, Inside]
      cases rules.parseAuthority scheme authority with
      | error message => simp [Except.map]
      | ok named =>
          simp only [Except.map, Except.ok.injEq, Option.some.injEq, forall_eq']
          rw [text_inside directory, ← walk_root]
          rfl
  | foreign text =>
      simp only [resolve, Stays, iff_true]
      cases rules.foreign text <;> simp [Except.map]

theorem descent_level {names : List Segment} (level : ∀ name ∈ names, isDoubleDot name = false) :
    (rules.descent names).ups = 0 := by
  induction names using List.reverseRecOn with
  | nil => rfl
  | append_singleton names name ih =>
      have last := level name (by simp)
      rw [descent_snoc, descendStep, last, if_neg Bool.false_ne_true]
      split <;> exact ih fun other member => level other (List.mem_append_left _ member)

theorem names_stay (base : Url) {text : List Char} (colon : ':' ∉ text) (backslash : '\\' ∉ text)
    (trimmed : text.head? ≠ some '/')
    (level : ∀ name ∈ directorySegments text, isDoubleDot name = false) :
    rules.Stays base (form base.scheme text) := by
  have schemeless : splitScheme text = none := by
    unfold splitScheme
    split
    · split
      · rename_i rest behind
        have member : ':' ∈ text.dropWhile isSchemeChar := by simp [behind]
        exact absurd ((List.dropWhile_sublist _).subset member) colon
      · rfl
    · rfl
  simp only [form, schemeless]
  cases text with
  | nil => trivial
  | cons first rest =>
      have name : isSlash first = false := by
        simp only [List.head?_cons, ne_eq, Option.some.injEq, List.mem_cons, not_or] at *
        simp [isSlash, trimmed, Ne.symm backslash.1]
      simp only [schemelessForm, name, Bool.false_eq_true, if_false, Stays, descent_level level,
        Nat.sub_zero, List.drop_length]
      exact List.nil_prefix

end Rules

end UrlReference

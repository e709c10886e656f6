import Server3.UriHost
import Server3.HostSelection

/-! Which host a request selects, against the host that its `Host` value names when the
port is left out. -/

namespace Server3.App

open Routes Upstream Resource UriHost

variable {U : Type} {T : Type → Type} {state : AppState U T} {headers : HeaderMap}
  {value key : String}

def Names (headers : HeaderMap) (value : String) : Prop :=
  ∃ bytes, headers.getAll "host" = [bytes] ∧ toStr bytes = some value

/-- The host that a `Host` value names: all of a literal in brackets, and otherwise what
comes before the last colon. -/
def hostPart (value : String) : String :=
  if bracketed value.toList then value else stripPort value

def withPort (host : String) (port : List Char) : String :=
  String.ofList (host.toList ++ ':' :: port)

def SelectsHost (state : AppState U T) (headers : HeaderMap) (host : String) : Prop :=
  state.selectedHost headers = host ∧
    ∃ cache, state.hostUpstreams.lookup host = some cache ∧ state.select headers = .ok cache

/-- The request selects the default upstream, or fails without one. -/
def SelectsDefault (state : AppState U T) (headers : HeaderMap) : Prop :=
  state.selectedHost headers = "**" ∧
    match state.upstream with
    | some cache => state.select headers = .ok cache
    | none => ∃ hostname, state.select headers = .error (.noUpstreamServer hostname)

structure IgnoresPort (state : AppState U T) : Prop where
  own : ∀ host ∈ state.hostUpstreams, Host host.toList → ∀ headers, Names headers host ∨
    (∃ port : List Char, (∀ char ∈ port, char.isDigit = true) ∧
      Names headers (withPort host port)) → SelectsHost state headers host
  other : ∀ headers value, Names headers value → hostPart value ∉ state.hostUpstreams →
    SelectsDefault state headers

def visible (char : Char) : Bool := (32 ≤ char.toNat && char.toNat < 127) || char.toNat = 9

/-- An IPv6 literal, or what a header value may hold of one whose bracket is not closed. -/
def Bracket (key : String) : Prop :=
  (∃ address, Ipv6 address ∧ key.toList = '[' :: (address ++ [']'])) ∨
    (∃ rest, key.toList = '[' :: rest ∧ ']' ∉ rest ∧ ∀ char ∈ key.toList, visible char = true)

theorem address_visible {char : Char} (legal : addressChar char) : visible char = true := by
  rcases legal with hex | rfl | rfl
  · simp only [hexDigit, Char.isDigit, Bool.or_eq_true, Bool.and_eq_true, decide_eq_true_eq,
      ge_iff_le, Char.le_def, UInt32.le_iff_toNat_le] at hex
    simp only [visible, Char.toNat, Bool.or_eq_true, Bool.and_eq_true, decide_eq_true_eq]
    have bounds : 48 ≤ char.val.toNat ∧ char.val.toNat ≤ 102 := by
      rcases hex with (⟨low, high⟩ | ⟨low, high⟩) | ⟨low, high⟩
      · exact ⟨low, high.trans (by decide)⟩
      · exact ⟨le_trans (by decide) low, high⟩
      · exact ⟨le_trans (by decide) low, high.trans (by decide)⟩
    omega
  · decide
  · decide

theorem byte_char : ∀ code : Fin 128, (Char.ofNat code).toNat = code := by decide

theorem to_str_visible {bytes : HeaderValue} (read : toStr bytes = some value) :
    ∀ char ∈ value.toList, visible char = true := by
  unfold toStr at read
  split at read
  · rename_i legal
    cases read
    rw [String.toList_ofList]
    intro char member
    rcases List.mem_map.mp member with ⟨byte, present, rfl⟩
    have range := List.all_eq_true.mp legal byte present
    simp only [Bool.or_eq_true, Bool.and_eq_true, decide_eq_true_eq, UInt8.le_iff_toNat_le,
      UInt8.lt_iff_toNat_lt, ← UInt8.toNat_inj] at range
    have small : byte.toNat < 128 := by
      simp only [UInt8.reduceToNat] at range
      omega
    have same := byte_char ⟨byte.toNat, small⟩
    simp only at same
    simp only [visible, same, Bool.or_eq_true, Bool.and_eq_true, decide_eq_true_eq]
    exact range
  · cases read

theorem visible_named (legal : ∀ char ∈ value.toList, visible char = true) :
    ∃ headers, Names headers value := by
  have code (char : Char) (shown : visible char = true) :
      (UInt8.ofNat char.toNat).toNat = char.toNat := by
    simp only [visible, Bool.or_eq_true, Bool.and_eq_true, decide_eq_true_eq] at shown
    rw [UInt8.toNat_ofNat']
    omega
  refine ⟨[("host", value.toList.map fun char => UInt8.ofNat char.toNat)], _, rfl, ?_⟩
  have chars : (value.toList.map fun char => UInt8.ofNat char.toNat).map
      (fun byte => Char.ofNat byte.toNat) = value.toList := by
    rw [List.map_map]
    refine (List.map_congr_left ?_).trans (List.map_id _)
    intro char member
    simp only [Function.comp_apply, code char (legal char member), Char.ofNat_toNat, id_eq]
  rw [toStr, if_pos, chars, String.ofList_toList]
  rw [List.all_map, List.all_eq_true]
  intro char member
  have shown := legal char member
  have same := code char shown
  simp only [visible, Bool.or_eq_true, Bool.and_eq_true, decide_eq_true_eq] at shown
  simp only [Function.comp_apply, Bool.or_eq_true, Bool.and_eq_true, decide_eq_true_eq,
    UInt8.le_iff_toNat_le, UInt8.lt_iff_toNat_lt, ← UInt8.toNat_inj, same, UInt8.reduceToNat]
  exact shown

theorem names_host (named : Names headers value) :
    hostname headers = .ok (some (stripPort value)) := by
  rcases named with ⟨bytes, single, read⟩
  have read : host headers = .ok (some value) := by simp only [host, single, read]
  rw [hostname, read]
  rfl

theorem selects_host (named : Names headers value)
    (present : stripPort value ∈ state.hostUpstreams) :
    SelectsHost state headers (stripPort value) := by
  rcases Option.isSome_iff_exists.mp (AList.lookup_isSome.mpr present) with ⟨cache, found⟩
  refine ⟨?_, cache, found, ?_⟩
  · rw [AppState.selectedHost, names_host named]
    exact if_pos (AList.lookup_isSome.mpr present)
  · rw [select_ok (names_host named), AppState.cacheForHost, Option.bind_some, found, Option.some_or]

theorem selects_default (named : Names headers value)
    (absent : stripPort value ∉ state.hostUpstreams) : SelectsDefault state headers := by
  have missing : state.hostUpstreams.lookup (stripPort value) = none :=
    AList.lookup_eq_none.mpr absent
  have chosen : state.cacheForHost (some (stripPort value)) = state.upstream := by
    rw [AppState.cacheForHost, Option.bind_some, missing, Option.none_or]
  refine ⟨?_, ?_⟩
  · rw [AppState.selectedHost, names_host named]
    simp only [missing, Option.isSome_none, Bool.false_eq_true, if_false]
  · rw [select_hostname (names_host named), chosen]
    cases state.upstream with
    | some cache => rfl
    | none => exact ⟨_, rfl⟩

theorem strip_with_port {port : List Char} (noColon : ':' ∉ port) :
    stripPort (withPort key port) = key := by
  have present : ':' ∈ key.toList ++ ':' :: port := by simp
  rcases rsplit_some present with ⟨before, after, split, text, last⟩
  rw [List.append_eq_append_iff] at text
  rcases text with ⟨more, longer, rest⟩ | ⟨more, shorter, rest⟩
  · cases more with
    | nil =>
        rw [List.append_nil] at longer
        rw [stripPort, withPort, String.toList_ofList, split, longer]
        exact String.ofList_toList
    | cons head more =>
        obtain ⟨-, rest⟩ := List.cons.inj rest
        exact absurd (rest ▸ by simp) noColon
  · cases more with
    | nil =>
        rw [List.append_nil] at shorter
        rw [stripPort, withPort, String.toList_ofList, split]
        simp only [← shorter]
        exact String.ofList_toList
    | cons head more =>
        obtain ⟨-, rest⟩ := List.cons.inj rest
        exact absurd (rest ▸ by simp) last

theorem digits_no_colon {port : List Char} (digits : ∀ char ∈ port, char.isDigit = true) :
    ':' ∉ port := by
  intro colon
  exact absurd (digits ':' colon) (by decide)

theorem port_unbracketed {port : List Char} (digits : ∀ char ∈ port, char.isDigit = true) :
    bracketed (withPort key port).toList = false := by
  rw [← Bool.not_eq_true, bracketed_iff]
  rintro ⟨inside, shape, -⟩
  rw [withPort, String.toList_ofList] at shape
  have last := congrArg List.getLast? shape
  rw [List.getLast?_append, List.getLast?_cons, ← List.cons_append, List.getLast?_concat] at last
  rcases List.eq_nil_or_concat' port with rfl | ⟨front, final, rfl⟩
  · simp at last
  · have digit := digits final (by simp)
    simp only [List.getLast?_concat, Option.getD_some, Option.some_or, Option.some.injEq] at last
    subst final
    cases digit

/-- The host of a value that is a host, with or without a port, is that host. -/
theorem host_part_host {port : List Char} (valid : Host key.toList)
    (digits : ∀ char ∈ port, char.isDigit = true) :
    hostPart key = key ∧ hostPart (withPort key port) = key := by
  refine ⟨?_, ?_⟩
  · unfold hostPart
    split
    · rfl
    · rename_i plain
      rw [stripPort_same]
      generalize key.toList = text at valid plain
      cases valid with
      | name _ _ valid => exact name_no_colon valid
      | literal address valid =>
          refine absurd (bracketed_iff.mpr ⟨address, rfl, ?_⟩) plain
          intro bracket
          rcases ipv6_chars valid ']' bracket with hex | same | same
          · exact absurd hex (by decide)
          · cases same
          · cases same
  · rw [hostPart, port_unbracketed digits, if_neg Bool.false_ne_true]
    exact strip_with_port (digits_no_colon digits)

theorem strip_bracketed (named : Names headers value) (closed : bracketed value.toList = true) :
    stripPort value = value ∨ Bracket (stripPort value) := by
  by_cases colon : ':' ∈ value.toList
  · right
    rcases bracketed_iff.mp closed with ⟨inside, shape, absent⟩
    rcases rsplit_some colon with ⟨before, after, split, text, -⟩
    have stripped : (stripPort value).toList = before := by
      rw [stripPort, split]
      exact String.toList_ofList
    have shown : ∀ char ∈ before, visible char = true := by
      intro char member
      rcases named with ⟨bytes, -, read⟩
      exact to_str_visible read char (text ▸ List.mem_append_left _ member)
    rw [shape] at text
    cases before with
    | nil => simp at text
    | cons head rest =>
        rw [List.cons_append] at text
        obtain ⟨rfl, tails⟩ := List.cons.inj text
        refine Or.inr ⟨rest, stripped, ?_, by rw [stripped]; exact shown⟩
        intro bracket
        rcases List.append_eq_append_iff.mp tails with ⟨more, -, last⟩ | ⟨more, longer, -⟩
        · cases more <;> simp at last
        · exact absent (longer ▸ List.mem_append_left _ bracket)
  · exact Or.inl (stripPort_same.mpr colon)

theorem bracket_misread (state : AppState U T) {rest : List Char} (shape : key.toList = '[' :: rest)
    (unclosed : ']' ∉ rest) (legal : ∀ char ∈ key.toList, visible char = true) :
    ∃ headers value, Names headers value ∧ hostPart value ∉ state.hostUpstreams ∧
      stripPort value = key := by
  let longest := (state.hostUpstreams.keys.map String.length).sum
  let port : List Char := List.replicate longest 'x' ++ [']']
  have noColon : ':' ∉ port := by simp [port]
  have closed : bracketed (withPort key port).toList = true := by
    rw [bracketed_iff]
    refine ⟨rest ++ ':' :: List.replicate longest 'x', ?_, ?_⟩
    · rw [withPort, String.toList_ofList, shape]
      simp [port]
    · simp [unclosed]
  have shown : ∀ char ∈ (withPort key port).toList, visible char = true := by
    intro char member
    rw [withPort, String.toList_ofList] at member
    simp only [port, List.mem_append, List.mem_cons, List.mem_replicate, List.not_mem_nil,
      or_false] at member
    rcases member with member | rfl | ⟨-, rfl⟩ | rfl
    · exact legal char member
    · decide
    · decide
    · decide
  rcases visible_named shown with ⟨headers, named⟩
  refine ⟨headers, _, named, ?_, strip_with_port noColon⟩
  rw [hostPart, if_pos closed]
  intro present
  have within : (withPort key port).length ≤ longest :=
    List.single_le_sum (by simp) _ (List.mem_map_of_mem (AList.mem_keys.mp present))
  rw [withPort, String.length_ofList] at within
  simp [port] at within
  omega

theorem literal_missed {address : List Char} (valid : Ipv6 address)
    (shape : key.toList = '[' :: (address ++ [']'])) :
    ∃ headers, Names headers key ∧ ¬ SelectsHost state headers key := by
  have colon : ':' ∈ key.toList := by
    rw [shape]
    simp [ipv6_colon valid]
  have shown : ∀ char ∈ key.toList, visible char = true := by
    intro char present
    simp only [shape, List.mem_cons, List.mem_append, List.not_mem_nil, or_false] at present
    rcases present with rfl | inside | rfl
    · decide
    · exact address_visible (ipv6_chars valid char inside)
    · decide
  rcases visible_named shown with ⟨headers, named⟩
  refine ⟨headers, named, ?_⟩
  intro selects
  have selected := selects.1
  by_cases present : stripPort key ∈ state.hostUpstreams
  · have other := (selects_host named present).1
    exact stripPort_same.mp (other.symm.trans selected) colon
  · have other := (selects_default named present).1
    rw [selected] at other
    rw [other] at shape
    simp at shape

theorem plain_selected {host : String} {headers : HeaderMap} (member : host ∈ state.hostUpstreams)
    (noColon : ':' ∉ host.toList)
    (named : Names headers host ∨ ∃ port : List Char, (∀ char ∈ port, char.isDigit = true) ∧
      Names headers (withPort host port)) : SelectsHost state headers host := by
  rcases named with named | ⟨port, digits, named⟩
  · have same := stripPort_same.mpr noColon
    have present : stripPort host ∈ state.hostUpstreams := by rwa [same]
    have selected := selects_host named present
    rwa [same] at selected
  · have same : stripPort (withPort host port) = host := strip_with_port (digits_no_colon digits)
    have present : stripPort (withPort host port) ∈ state.hostUpstreams := by rwa [same]
    have selected := selects_host named present
    rwa [same] at selected

/-- Host selection ignores exactly the port if and only if no configured host is an IPv6
literal or an unclosed bracket. -/
theorem port_ignored_iff (state : AppState U T) :
    IgnoresPort state ↔ ∀ key ∈ state.hostUpstreams, ¬ Bracket key := by
  constructor
  · intro ignores key member misread
    rcases misread with ⟨address, valid, shape⟩ | ⟨rest, shape, unclosed, legal⟩
    · have literal : Host key.toList := shape ▸ .literal address valid
      rcases literal_missed valid shape with ⟨headers, named, missed⟩
      exact missed (ignores.own key member literal headers (Or.inl named))
    · rcases bracket_misread state shape unclosed legal with
        ⟨headers, value, named, absent, rfl⟩
      have selected := (selects_host named member).1
      rw [(ignores.other headers value named absent).1] at selected
      rw [← selected] at shape
      simp at shape
  · intro plain
    refine ⟨?_, ?_⟩
    · intro host member valid headers named
      have noColon : ':' ∉ host.toList := by
        generalize shape : host.toList = text at valid
        cases valid with
        | name _ _ valid => exact name_no_colon valid
        | literal address valid => exact absurd (Or.inl ⟨address, valid, shape⟩) (plain host member)
      exact plain_selected member noColon named
    · intro headers value named absent
      apply selects_default named
      intro present
      by_cases closed : bracketed value.toList
      · rw [hostPart, if_pos closed] at absent
        rcases strip_bracketed named closed with same | bracket
        · exact absent (same ▸ present)
        · exact plain _ present bracket
      · rw [hostPart, if_neg closed] at absent
        exact absent present

def loopbackState : AppState Unit LiteralTree where
  upstream := none
  hostUpstreams := .singleton "[::1]" ⟨plainCache, ()⟩

def loopbackHeaders : HeaderMap := [("host", [91, 58, 58, 49, 93])]

/-- The request for the configured host fails. -/
theorem loopback_not_selected :
    loopbackState.select loopbackHeaders = .error (.noUpstreamServer (some "[:")) ∧
      ¬ IgnoresPort loopbackState := by
  refine ⟨rfl, fun ignores => ?_⟩
  have address : Ipv6 [':', ':', '1'] :=
    .short [] ['1'] 0 1 (Or.inr ⟨rfl, rfl⟩)
      (Or.inl (.groups _ _ (.one _ ⟨by decide, List.forall_mem_singleton.mpr rfl⟩))) (by decide)
  have selected := (ignores.own "[::1]" (by decide) (.literal _ address) loopbackHeaders
    (Or.inl ⟨_, rfl, rfl⟩)).1
  exact absurd selected (by decide)

end Server3.App

import Mathlib.Tactic.Common

/-! Asking several sources in order for the first that has something, and keeping the
first failure in case none has. -/

namespace FirstSuccess

/-- A source has something, has nothing, or fails. -/
abbrev Reply (ε ρ : Type) := Except ε (Option ρ)

variable {ε ρ α ι : Type}

def succeeds : Reply ε ρ → Bool
  | .ok (some _) => true
  | _ => false

def failure : Reply ε ρ → Option ε
  | .error failed => some failed
  | .ok _ => none

def settle : Option ε → Reply ε ρ
  | some failed => .error failed
  | none => .ok none

/-- The first success among the replies, else the first failure, else nothing. -/
def verdict (replies : List (Reply ε ρ)) : Reply ε ρ :=
  (replies.find? succeeds).getD (settle (replies.findSome? failure))

/-- The sources up to the first that succeeds, and that one. -/
def asked (succeeds : α → Bool) : List α → List α
  | [] => []
  | source :: rest => if succeeds source then [source] else source :: asked succeeds rest

section Scan

variable {M : Type → Type} [Monad M] (ask : α → M (Reply ε ρ))

def scan (first : Option ε) : List α → M (Reply ε ρ)
  | [] => pure (settle first)
  | source :: rest => do
      match ← ask source with
      | .ok (some found) => pure (.ok (some found))
      | .ok none => scan first rest
      | .error failed => scan (first.or (some failed)) rest

def resume (first : Option ε) (rest : List α) : Reply ε ρ → M (Reply ε ρ)
  | .ok (some found) => pure (.ok (some found))
  | .ok none => scan ask first rest
  | .error failed => scan ask (first.or (some failed)) rest

theorem scan_cons (first : Option ε) (source : α) (rest : List α) :
    scan ask first (source :: rest) = ask source >>= resume ask first rest := by
  rw [scan]
  apply congrArg (ask source >>= ·)
  funext reply
  rcases reply with failed | ⟨_ | found⟩ <;> rfl

theorem scan_map {β : Type} (make : β → α) (first : Option ε) (sources : List β) :
    scan ask first (sources.map make) = scan (fun source => ask (make source)) first sources := by
  induction sources generalizing first with
  | nil => rfl
  | cons source rest ih =>
      rw [List.map_cons, scan_cons, scan_cons]
      apply congrArg (ask (make source) >>= ·)
      funext reply
      rcases reply with failed | ⟨_ | found⟩
      · exact ih (first.or (some failed))
      · exact ih first
      · rfl

variable [LawfulMonad M]

/-- A part of the sources can be scanned by itself and then stand for one source. -/
theorem scan_append (first inner : Option ε) (part rest : List α) :
    scan ask (first.or inner) (part ++ rest) = scan ask inner part >>= resume ask first rest := by
  induction part generalizing inner with
  | nil =>
      rw [List.nil_append, scan, pure_bind]
      cases inner with
      | none => rw [Option.or_none]; rfl
      | some failed => rfl
  | cons source part ih =>
      rw [List.cons_append, scan_cons, scan_cons, bind_assoc]
      congr 1
      funext reply
      rcases reply with failed | ⟨_ | found⟩
      · rw [resume, resume, Option.or_assoc]
        exact ih (inner.or (some failed))
      · exact ih inner
      · rw [resume, resume, pure_bind]
        rfl

theorem scan_part (first : Option ε) (part rest : List α) :
    scan ask first (part ++ rest) = scan ask none part >>= resume ask first rest := by
  have split := scan_append ask first none part rest
  rwa [Option.or_none] at split

theorem scan_single (source : α) : scan ask none [source] = ask source := by
  rw [scan_cons]
  have last : resume ask none [] = fun reply => pure reply := by
    funext reply
    rcases reply with failed | ⟨_ | found⟩ <;> rfl
  rw [last, bind_pure]

end Scan

section Traced

variable (reply : ι → Reply ε ρ)

def probe (source : ι) : StateM (List ι) (Reply ε ρ) := do
  modify fun trace => trace ++ [source]
  return reply source

theorem probe_bind (source : ι) (next : Reply ε ρ → StateM (List ι) (Reply ε ρ)) (trace : List ι) :
    (probe reply source >>= next).run trace = (next (reply source)).run (trace ++ [source]) := rfl

theorem scan_traced_from (first : Option ε) (sources trace : List ι) :
    (scan (probe reply) first sources).run trace =
      (((sources.map reply).find? succeeds).getD
          (settle (first.or ((sources.map reply).findSome? failure))),
        trace ++ asked (fun source => succeeds (reply source)) sources) := by
  induction sources generalizing first trace with
  | nil =>
      simp only [scan, asked, List.map_nil, List.find?_nil, List.findSome?_nil, Option.or_none,
        Option.getD_none, List.append_nil]
      rfl
  | cons source rest ih =>
      rw [scan_cons, probe_bind, List.map_cons, asked]
      rcases replied : reply source with failed | ⟨_ | found⟩
      · have later := ih (first.or (some failed)) (trace ++ [source])
        rw [Option.or_assoc, Option.some_or, List.append_assoc] at later
        exact later
      · have later := ih first (trace ++ [source])
        rw [List.append_assoc] at later
        exact later
      · rfl

theorem scan_traced (sources trace : List ι) :
    (scan (probe reply) none sources).run trace =
      (verdict (sources.map reply),
        trace ++ asked (fun source => succeeds (reply source)) sources) := by
  rw [scan_traced_from, Option.none_or]
  rfl

end Traced

end FirstSuccess

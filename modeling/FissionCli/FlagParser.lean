import FissionCli.Types

/-! `flagValueParser`, which `cliHook` runs on the arguments of every command: a flag followed
by more than one value means the shell expanded a wildcard, and the command stops naming each
such flag. The index arithmetic of the source is kept, with every read of `args` checked. -/

namespace FissionCli.FlagParser

/-- The loop collecting the indexes of the arguments that start with `-`. -/
def flagIndexesFrom : Nat → List String → List Nat
  | _, [] => []
  | k, v :: rest => if hasPrefix v "-" then k :: flagIndexesFrom (k + 1) rest else flagIndexesFrom (k + 1) rest

/-- The loop over consecutive flag indexes; `none` is a read of `args` out of range. -/
def errorFlagsOf (args : List String) : List Nat → Option (List String)
  | i :: j :: rest =>
    if (j : Int) - i > 2 then do
      let flag ← args[i]?
      let more ← errorFlagsOf args (j :: rest)
      pure (flag :: more)
    else errorFlagsOf args (j :: rest)
  | _ => some []

def unableToParse (errorFlags : List String) : String :=
  "Unable to parse flags: " ++ ", ".intercalate errorFlags ++
    "\nThe argument should have only one input value. Please quote the input value if it contains wildcard characters(*)."

/-- `none` is a read of `args` out of range, a run-time panic. -/
def flagValueParser (args : List String) : Option (Except String Unit) :=
  if args.length = 0 then some (.ok ())
  else
    let flagIndexes := flagIndexesFrom 0 args ++ [args.length]
    (errorFlagsOf args flagIndexes).map fun errorFlags =>
      if errorFlags.length > 0 then .error (unableToParse errorFlags) else .ok ()

/-- `cliHook` past its verbosity setting. -/
def cliHook (args : List String) : Option (Except Fatal Unit) :=
  (flagValueParser args).map (Except.mapError .log)

/-- The arguments that start with `-` and are followed by two or more that do not. -/
def overfilledFlags : List String → List String
  | [] => []
  | v :: rest =>
    if hasPrefix v "-" ∧ 2 ≤ (rest.takeWhile fun w => !hasPrefix w "-").length then
      v :: overfilledFlags rest
    else overfilledFlags rest

theorem head_flagIndexesFrom (k : Nat) (args : List String) :
    (flagIndexesFrom k args ++ [k + args.length]).head? =
      some (k + (args.takeWhile fun w => !hasPrefix w "-").length) := by
  induction args generalizing k with
  | nil => rfl
  | cons v rest ih =>
    by_cases flag : hasPrefix v "-" = true
    · simp [flagIndexesFrom, flag]
    · simp only [flagIndexesFrom, flag, List.takeWhile_cons, Bool.not_false, if_true, if_false,
        List.length_cons, Bool.false_eq_true]
      rw [show k + (rest.length + 1) = k + 1 + rest.length by omega, ih]
      simp only [Option.some.injEq]
      omega

/-- A suffix's flag indexes are read inside `args` and report the suffix's overfilled flags. -/
theorem errorFlagsOf_suffix (pre suf : List String) :
    errorFlagsOf (pre ++ suf) (flagIndexesFrom pre.length suf ++ [pre.length + suf.length]) =
      some (overfilledFlags suf) := by
  induction suf generalizing pre with
  | nil => simp [flagIndexesFrom, errorFlagsOf, overfilledFlags]
  | cons v rest ih =>
    have next := ih (pre ++ [v])
    rw [List.append_assoc, List.singleton_append] at next
    by_cases flag : hasPrefix v "-" = true
    · obtain ⟨j, tail, split⟩ := List.exists_cons_of_ne_nil
        (by simp : flagIndexesFrom (pre.length + 1) rest ++ [pre.length + 1 + rest.length] ≠ [])
      have gap := head_flagIndexesFrom (pre.length + 1) rest
      rw [split, List.head?_cons, Option.some.injEq] at gap
      simp only [List.length_append, List.length_singleton, split] at next
      have read : (pre ++ v :: rest)[pre.length]? = some v := by
        rw [List.getElem?_append_right (Nat.le_refl _), Nat.sub_self, List.getElem?_cons_zero]
      have indexes : flagIndexesFrom pre.length (v :: rest) ++ [pre.length + (v :: rest).length] =
          pre.length :: j :: tail := by
        rw [← split]
        simp [flagIndexesFrom, flag, Nat.add_assoc, Nat.add_comm 1]
      rw [indexes]
      simp only [errorFlagsOf, read, next, overfilledFlags, flag, true_and]
      by_cases wide : 2 ≤ (rest.takeWhile fun w => !hasPrefix w "-").length
      · rw [if_pos (by omega), if_pos wide]
        rfl
      · rw [if_neg (by omega), if_neg wide]
    · simp only [List.length_append, List.length_singleton] at next
      simpa [flagIndexesFrom, flag, overfilledFlags, Nat.add_assoc, Nat.add_comm 1] using next

/-- `flagValueParser` fails exactly when some flag is followed by two or more values, and then
names exactly those flags, in order and with repeats; it never reads outside `args`. -/
theorem flagValueParser_reports_overfilled_flags (args : List String) :
    flagValueParser args = some (if overfilledFlags args = [] then .ok ()
      else .error (unableToParse (overfilledFlags args))) := by
  by_cases empty : args = []
  · subst empty
    rfl
  · have loop := errorFlagsOf_suffix [] args
    simp only [List.nil_append, List.length_nil, Nat.zero_add] at loop
    simp [flagValueParser, empty, loop, List.length_pos]

example : flagValueParser ["--name", "e1", "--code", "a.js", "b.js", "--env", "nodejs"] =
    some (.error (unableToParse ["--code"])) := rfl

end FissionCli.FlagParser

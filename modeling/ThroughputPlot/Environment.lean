/-!
# Environment references

A reference is a dollar sign and a name in braces; the name is not empty and may hold
anything but the closing brace.  References are found from left to right, and the value
put in is not searched again.  A reference to a variable that is not set stays as it is.
-/

namespace ThroughputPlot

/-- The variables that are set, with their values. -/
abbrev Environment := List (String × String)

namespace Environment

/--
The value that a name leads to.  A variable is kept as its name, an equals sign and its
value, and a name leads to what follows it and an equals sign there; so a name that holds
an equals sign itself may reach into a value.
-/
def get? (environment : Environment) (name : String) : Option String :=
  let front := name.toList ++ ['=']
  environment.findSome? fun (key, value) =>
    let entry := key.toList ++ '=' :: value.toList
    if front.isPrefixOf entry then some (String.ofList (entry.drop front.length)) else none

/-- The name of the reference at the front of a text, and what follows the reference. -/
def reference? : List Char → Option (List Char × List Char)
  | '$' :: '{' :: rest =>
    let name := rest.takeWhile (· ≠ '}')
    match rest.dropWhile (· ≠ '}') with
    | _ :: after => if name.isEmpty then none else some (name, after)
    | [] => none
  | _ => none

theorem length_of_reference? {text name after : List Char}
    (h : reference? text = some (name, after)) : after.length < text.length := by
  unfold reference? at h
  split at h
  · rename_i rest
    have hle := (List.dropWhile_sublist (fun c => decide (c ≠ '}')) (l := rest)).length_le
    simp only at h
    split at h
    · rename_i heq
      split at h
      · cases h
      · cases h
        rw [heq] at hle
        simp only [List.length_cons] at hle ⊢
        omega
    · cases h
  · cases h

def writeReference (name : List Char) : List Char := '$' :: '{' :: (name ++ ['}'])

def expand (value : String → Option String) (text : List Char) : List Char :=
  match h : reference? text with
  | some (name, after) =>
    have : after.length < text.length := length_of_reference? h
    let new := match value (String.ofList name) with
      | some v => v.toList
      | none => writeReference name
    new ++ expand value after
  | none =>
    match text with
    | [] => []
    | c :: rest => c :: expand value rest
termination_by text.length

def references (text : List Char) : List String :=
  match h : reference? text with
  | some (name, after) =>
    have : after.length < text.length := length_of_reference? h
    String.ofList name :: references after
  | none =>
    match text with
    | [] => []
    | _ :: rest => references rest
termination_by text.length

end Environment

end ThroughputPlot

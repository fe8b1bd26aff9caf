/-! # Redaction

Error messages about faulty messages may quote what the adapter sent. Redaction puts a fixed word in
the place of every text between a pair of double quotes, and of the text between the first two
grave accents. -/

namespace DebugHost.Redaction

/-- What stands in the place of a redacted text. -/
def mark : List Char := "<redacted>".toList

/-- Splits a text at the first `c`: what stands before it and what stands behind. -/
def cut (c : Char) : List Char → Option (List Char × List Char)
  | [] => none
  | x :: rest => if x = c then some ([], rest) else (cut c rest).map fun (a, b) => (x :: a, b)

theorem length_cut {c : Char} {cs a b : List Char} (h : cut c cs = some (a, b)) :
    a.length + b.length + 1 = cs.length := by
  induction cs generalizing a with
  | nil => simp [cut] at h
  | cons x rest ih =>
    simp only [cut] at h
    split at h
    · simp only [Option.some.injEq, Prod.mk.injEq] at h
      obtain ⟨rfl, rfl⟩ := h
      simp
    · simp only [Option.map_eq_some_iff, Prod.mk.injEq, Prod.exists] at h
      obtain ⟨a', b', h', rfl, rfl⟩ := h
      have := ih h'
      simp only [List.length_cons]
      omega

/-- Redacts what stands between pairs of double quotes. The second component tells whether a quote
is left without a partner. -/
def quotes (cs : List Char) : List Char × Bool :=
  match h : cut '"' cs with
  | none => (cs, false)
  | some (a, rest) =>
    match h' : cut '"' rest with
    | none => (a ++ '"' :: rest, true)
    | some (_, rest') =>
      have : rest'.length < cs.length := by
        have h1 := length_cut h
        have h2 := length_cut h'
        omega
      let (r, open_) := quotes rest'
      (a ++ '"' :: (mark ++ '"' :: r), open_)
termination_by cs.length

/-- Redacts what stands between the first two grave accents. -/
def accents (cs : List Char) : List Char :=
  match cut '`' cs with
  | none => cs
  | some (a, rest) =>
    match cut '`' rest with
    | none => cs
    | some (_, rest') => a ++ '`' :: (mark ++ '`' :: rest')

/-- Redacts a message. A message with a double quote that has no partner keeps its grave accents. -/
def redactChars (cs : List Char) : List Char :=
  match quotes cs with
  | (r, true) => r
  | (r, false) => accents r

/-- Redacts a message. -/
def redact (s : String) : String := String.ofList (redactChars s.toList)

example : redact "a \"b\" c \"d" = "a \"<redacted>\" c \"d" := by decide +kernel

end DebugHost.Redaction

/-
Module: WebhookProcessor.Exposition.Text
Layer: Exposition
Purpose: The Prometheus text format for metrics without labels: a HELP line, a TYPE line and a sample
  for each metric.  A reader that checks the format (a type before its sample, one type and one
  sample to a name, values that are numbers) gives the samples of every written text back.
Trusted boundary: none
Main exports: Kind, Metric, Metric.write, scrape, scrape_write
-/
import Mathlib.Data.List.TakeWhile
import WebhookProcessor.Numeric.Decimal

namespace Exposition

inductive Kind where
  | counter
  | gauge
deriving Repr, DecidableEq

def Kind.write : Kind → List Char
  | .counter => ['c', 'o', 'u', 'n', 't', 'e', 'r']
  | .gauge => ['g', 'a', 'u', 'g', 'e']

inductive Line where
  | help (name text : List Char)
  | type (name : List Char) (kind : Kind)
  | sample (name value : List Char)
deriving Repr, DecidableEq

def helpTag : List Char := ['#', ' ', 'H', 'E', 'L', 'P', ' ']

def typeTag : List Char := ['#', ' ', 'T', 'Y', 'P', 'E', ' ']

/-- A line without its line feed. -/
def Line.write : Line → List Char
  | .help name text => helpTag ++ (name ++ ' ' :: text)
  | .type name kind => typeTag ++ (name ++ ' ' :: kind.write)
  | .sample name value => name ++ ' ' :: value

/-! ### Reading lines -/

/-- What stands before and after the first blank. -/
def word (chars : List Char) : Option (List Char × List Char) :=
  match chars.dropWhile (· ≠ ' ') with
  | [] => none
  | _ :: rest => some (chars.takeWhile (· ≠ ' '), rest)

def readKind (chars : List Char) : Option Kind :=
  if chars = Kind.counter.write then some .counter
  else if chars = Kind.gauge.write then some .gauge
  else none

def readLine (chars : List Char) : Option Line :=
  if chars.take 7 = helpTag then (word (chars.drop 7)).map fun parts => .help parts.1 parts.2
  else if chars.take 7 = typeTag then
    (word (chars.drop 7)).bind fun parts => (readKind parts.2).map fun kind => .type parts.1 kind
  else if chars.head? = some '#' then none
  else (word chars).map fun parts => .sample parts.1 parts.2

/-- The lines of a text, each of which ends in a line feed. -/
def readLines (text : List Char) : Option (List Line) :=
  let lines := text.splitOn '\n'
  if lines.getLast? = some [] then lines.dropLast.mapM readLine else none

/-! ### Reading samples -/

structure Sample where
  name : List Char
  kind : Kind
  value : ℚ
deriving DecidableEq

/-- Collects the samples, given the types declared so far. -/
def collect : List (List Char × Kind) → List Line → Option (List Sample)
  | _, [] => some []
  | types, .help _ _ :: rest => collect types rest
  | types, .type name kind :: rest =>
      if name ∈ types.map Prod.fst then none else collect ((name, kind) :: types) rest
  | types, .sample name value :: rest => do
      let kind ← types.lookup name
      let number ← Decimal.read value
      let samples ← collect types rest
      if name ∈ samples.map Sample.name then none
      else some ({ name := name, kind := kind, value := number } :: samples)

/-- The samples of a well-formed text. -/
def scrape (text : List Char) : Option (List Sample) :=
  (readLines text).bind (collect [])

/-! ### Writing metrics -/

/-- A metric with its help text, its kind and its value as a text. -/
structure Metric where
  name : List Char
  help : List Char
  kind : Kind
  value : List Char

def Metric.lines (metric : Metric) : List Line :=
  [.help metric.name metric.help, .type metric.name metric.kind, .sample metric.name metric.value]

def writeLines (lines : List Line) : List Char :=
  lines.flatMap fun line => line.write ++ ['\n']

def Metric.write (metric : Metric) : List Char :=
  writeLines metric.lines

/-- A name has no blank, no line feed and no hash, and a help text has no line feed. -/
structure Metric.Titled (metric : Metric) : Prop where
  name : ∀ c ∈ metric.name, c ≠ ' ' ∧ c ≠ '\n' ∧ c ≠ '#'
  help : '\n' ∉ metric.help

/-- The sample that a metric stands for. -/
def Metric.Shows (metric : Metric) (sample : Sample) : Prop :=
  sample.name = metric.name ∧ sample.kind = metric.kind ∧
    Decimal.read metric.value = some sample.value

/-! ### What is written is read back -/

theorem word_append {name : List Char} (blank : ∀ c ∈ name, c ≠ ' ') (rest : List Char) :
    word (name ++ ' ' :: rest) = some (name, rest) := by
  have kept : ∀ c ∈ name, decide (c ≠ ' ') = true := fun c member => by simp [blank c member]
  unfold word
  rw [List.dropWhile_append_of_pos kept, List.takeWhile_append_of_pos kept]
  simp

theorem readKind_write (kind : Kind) : readKind kind.write = some kind := by
  cases kind <;> rfl

theorem readLine_help {name : List Char} (blank : ∀ c ∈ name, c ≠ ' ') (text : List Char) :
    readLine (Line.help name text).write = some (.help name text) := by
  have tagged : (helpTag ++ (name ++ ' ' :: text)).take 7 = helpTag := rfl
  have rest : (helpTag ++ (name ++ ' ' :: text)).drop 7 = name ++ ' ' :: text := rfl
  rw [Line.write, readLine, if_pos tagged, rest, word_append blank]
  rfl

theorem readLine_type {name : List Char} (blank : ∀ c ∈ name, c ≠ ' ') (kind : Kind) :
    readLine (Line.type name kind).write = some (.type name kind) := by
  have tagged : (typeTag ++ (name ++ ' ' :: kind.write)).take 7 = typeTag := rfl
  have rest : (typeTag ++ (name ++ ' ' :: kind.write)).drop 7 = name ++ ' ' :: kind.write := rfl
  have other : typeTag ≠ helpTag := by decide
  rw [Line.write, readLine, tagged, if_neg other, if_pos rfl, rest, word_append blank,
    Option.bind_some, readKind_write]
  rfl

theorem readLine_sample {name : List Char} (plain : ∀ c ∈ name, c ≠ ' ' ∧ c ≠ '#')
    (value : List Char) :
    readLine (Line.sample name value).write = some (.sample name value) := by
  have unmarked : (name ++ ' ' :: value).head? ≠ some '#' := by
    cases name with
    | nil => simp
    | cons c name => simpa using (plain c List.mem_cons_self).2
  have untagged : ∀ tag : List Char, tag.head? = some '#' →
      (name ++ ' ' :: value).take 7 ≠ tag := by
    rintro tag marked rfl
    rw [List.head?_take] at marked
    exact unmarked (by simpa using marked)
  rw [Line.write, readLine, if_neg (untagged _ rfl), if_neg (untagged _ rfl), if_neg unmarked,
    word_append fun c member => (plain c member).1]
  rfl

theorem not_mem_write_kind (kind : Kind) : '\n' ∉ kind.write := by
  cases kind <;> decide

/-- The lines of a metric are read as they were written, and none of them holds a line feed. -/
theorem Metric.Titled.lines {metric : Metric} (titled : metric.Titled) {sample : Sample}
    (shows : metric.Shows sample) :
    ∀ line ∈ metric.lines, '\n' ∉ line.write ∧ readLine line.write = some line := by
  have blank : ∀ c ∈ metric.name, c ≠ ' ' := fun c member => (titled.name c member).1
  have plain : ∀ c ∈ metric.name, c ≠ ' ' ∧ c ≠ '#' := fun c member =>
    ⟨blank c member, (titled.name c member).2.2⟩
  have feed : '\n' ∉ metric.name := fun member => (titled.name _ member).2.1 rfl
  have noValue : '\n' ∉ metric.value := by
    intro member
    rcases Decimal.isNumeral_of_read shows.2.2 _ member with digit | point | sign
    · exact absurd digit (by decide)
    · exact absurd point (by decide)
    · exact absurd sign (by decide)
  have noHelpTag : '\n' ∉ helpTag := by decide
  have noTypeTag : '\n' ∉ typeTag := by decide
  intro line member
  simp only [Metric.lines, List.mem_cons, List.not_mem_nil, or_false] at member
  rcases member with rfl | rfl | rfl
  · refine ⟨?_, readLine_help blank _⟩
    simp [Line.write, noHelpTag, feed, titled.help]
  · refine ⟨?_, readLine_type blank _⟩
    simp [Line.write, noTypeTag, feed, not_mem_write_kind]
  · refine ⟨?_, readLine_sample plain _⟩
    simp [Line.write, feed, noValue]

theorem splitOn_writeLines {lines : List Line} (feed : ∀ line ∈ lines, '\n' ∉ line.write) :
    (writeLines lines).splitOn '\n' = lines.map Line.write ++ [[]] := by
  induction lines with
  | nil => rfl
  | cons line lines inductionHypothesis =>
      have rest := inductionHypothesis fun other member => feed other (List.mem_cons_of_mem _ member)
      have first : ∀ c ∈ line.write, (c == '\n') = false := by
        intro c member
        simp only [beq_eq_false_iff_ne]
        rintro rfl
        exact feed line List.mem_cons_self member
      have split := List.splitOnP_append_cons_of_forall_mem first '\n' rfl (writeLines lines)
      simp only [writeLines, List.flatMap_cons, List.append_assoc, List.singleton_append] at split ⊢
      rw [List.splitOn, split]
      exact congrArg (line.write :: ·) rest

theorem readLines_writeLines {lines : List Line}
    (written : ∀ line ∈ lines, '\n' ∉ line.write ∧ readLine line.write = some line) :
    readLines (writeLines lines) = some lines := by
  have read : (lines.map Line.write).mapM readLine = some lines := by
    induction lines with
    | nil => rfl
    | cons line lines inductionHypothesis =>
        rw [List.map_cons, List.mapM_cons, (written line List.mem_cons_self).2,
          inductionHypothesis fun other member => written other (List.mem_cons_of_mem _ member)]
        rfl
  unfold readLines
  rw [splitOn_writeLines fun line member => (written line member).1]
  simp [read]

theorem map_name_of_shows {metrics : List Metric} {samples : List Sample}
    (shown : List.Forall₂ Metric.Shows metrics samples) :
    samples.map Sample.name = metrics.map Metric.name := by
  induction shown with
  | nil => rfl
  | cons shows _ inductionHypothesis => rw [List.map_cons, List.map_cons, shows.1, inductionHypothesis]

theorem exists_shows {metrics : List Metric} {samples : List Sample}
    (shown : List.Forall₂ Metric.Shows metrics samples) :
    ∀ metric ∈ metrics, ∃ sample, metric.Shows sample := by
  induction shown with
  | nil => exact List.forall_mem_nil _
  | cons shows _ inductionHypothesis =>
      exact List.forall_mem_cons.mpr ⟨⟨_, shows⟩, inductionHypothesis⟩

theorem collect_lines {metrics : List Metric} {samples : List Sample}
    (shown : List.Forall₂ Metric.Shows metrics samples) (unique : (metrics.map Metric.name).Nodup)
    {types : List (List Char × Kind)}
    (fresh : ∀ metric ∈ metrics, metric.name ∉ types.map Prod.fst) :
    collect types (metrics.flatMap Metric.lines) = some samples := by
  induction shown generalizing types with
  | nil => rfl
  | @cons metric sample metrics samples shows shown inductionHypothesis =>
      obtain ⟨absent, uniqueRest⟩ := List.nodup_cons.mp unique
      obtain ⟨named, kinded, read⟩ := shows
      have undeclared : metric.name ∉ types.map Prod.fst := fresh _ List.mem_cons_self
      have freshRest : ∀ other ∈ metrics,
          other.name ∉ ((metric.name, metric.kind) :: types).map Prod.fst := by
        intro other member declared
        rcases List.mem_cons.mp declared with same | old
        · exact absent (List.mem_map.mpr ⟨other, member, same⟩)
        · exact fresh other (List.mem_cons_of_mem _ member) old
      have rest := inductionHypothesis uniqueRest freshRest
      have unsampled : metric.name ∉ samples.map Sample.name := by
        rw [map_name_of_shows shown]
        exact absent
      rw [List.flatMap_cons, Metric.lines]
      simp only [List.cons_append, List.nil_append, collect, if_neg undeclared,
        List.lookup_cons_self, read, rest, Option.bind_eq_bind, Option.bind_some,
        if_neg unsampled]
      rw [← named, ← kinded]

/-- The samples of written metrics with different names are read back. -/
theorem scrape_write {metrics : List Metric} {samples : List Sample}
    (titled : ∀ metric ∈ metrics, metric.Titled) (unique : (metrics.map Metric.name).Nodup)
    (shown : List.Forall₂ Metric.Shows metrics samples) :
    scrape (metrics.flatMap Metric.write) = some samples := by
  have joined : metrics.flatMap Metric.write = writeLines (metrics.flatMap Metric.lines) := by
    unfold writeLines
    rw [List.flatMap_assoc]
    rfl
  have written : ∀ line ∈ metrics.flatMap Metric.lines,
      '\n' ∉ line.write ∧ readLine line.write = some line := by
    intro line member
    obtain ⟨metric, known, within⟩ := List.mem_flatMap.mp member
    obtain ⟨sample, shows⟩ := exists_shows shown metric known
    exact (titled metric known).lines shows line within
  rw [joined, scrape, readLines_writeLines written, Option.bind_some]
  exact collect_lines shown unique fun _ _ => List.not_mem_nil

end Exposition

import LinkBulker.Foundations.Quoting

/-! Comma-separated values as RFC 4180 has them.  A line ends with LF or with CR and LF, the last
one may go without. -/

namespace Foundations.Csv

open Quoting

/-- Where in a field the reader stands: at its head, in a bare one, between its quotes, behind a
quote that closes it or is the first of two, or behind the CR of a line end. -/
inductive Mode
  | start
  | plain
  | quoted
  | closed
  | carriage
  deriving DecidableEq

structure Reader where
  records : List (List String) := []
  record : List String := []
  field : List Char := []
  mode : Mode := .start
  deriving DecidableEq

def Reader.fields (r : Reader) : List String := r.record ++ [String.ofList r.field]

def Reader.separate (r : Reader) (c : Char) : Option Reader :=
  if c = ',' then some { records := r.records, record := r.fields }
  else if c = '\n' then some { records := r.records ++ [r.fields] }
  else if c = '\r' then some { r with mode := .carriage }
  else none

def isSpecial (c : Char) : Bool := c = ',' || c = '\n' || c = '\r' || c = '"'

def Reader.push (r : Reader) (mode : Mode) (c : Char) : Reader :=
  { r with field := r.field ++ [c], mode }

def Reader.step (r : Reader) (c : Char) : Option Reader :=
  match r.mode with
  | .start =>
    if c = '"' then some { r with mode := .quoted }
    else if isSpecial c then r.separate c
    else some (r.push .plain c)
  | .plain => if isSpecial c then r.separate c else some (r.push .plain c)
  | .quoted => if c = '"' then some { r with mode := .closed } else some (r.push .quoted c)
  | .closed => if c = '"' then some (r.push .quoted c) else r.separate c
  | .carriage => if c = '\n' then some { records := r.records ++ [r.fields] } else none

def Reader.finish (r : Reader) : Option (List (List String)) :=
  match r.mode with
  | .quoted | .carriage => none
  | .start => if r.record = [] then some r.records else some (r.records ++ [r.fields])
  | .plain | .closed => some (r.records ++ [r.fields])

def Reader.run (r : Reader) : List Char → Option Reader
  | [] => some r
  | c :: cs => (r.step c).bind fun r' => r'.run cs

def read (text : String) : Option (List (List String)) :=
  (({} : Reader).run text.toList).bind Reader.finish

inductive Written : String → String → Prop
  | plain {s : String} (hne : s ≠ "") (h : ∀ c ∈ s.toList, isSpecial c = false) : Written s s
  | quoted (s : String) : Written ("\"" ++ String.ofList (escape '"' s.toList) ++ "\"") s

def WrittenLine (line : String) (record : List String) : Prop :=
  ∃ texts, texts ≠ [] ∧ line = ",".intercalate texts ∧ List.Forall₂ Written texts record

section Laws

variable {r : Reader} {cs rest : List Char} {text line s eol : String} {texts record : List String}

theorem Reader.run_plain (h : ∀ c ∈ cs, isSpecial c = false) (hr : r.mode = .plain) :
    r.run (cs ++ rest) = ({ r with field := r.field ++ cs } : Reader).run rest := by
  induction cs generalizing r with
  | nil => simp
  | cons c cs ih =>
    have hstep : r.step c = some (r.push .plain c) := by
      simp [step, hr, h c List.mem_cons_self]
    rw [List.cons_append, run, hstep, Option.bind_some,
      ih (fun d hd => h d (List.mem_cons_of_mem c hd)) rfl]
    simp [push, hr]

theorem Reader.run_escape (hr : r.mode = .quoted) :
    r.run (escape '"' cs ++ rest) = ({ r with field := r.field ++ cs } : Reader).run rest := by
  induction cs generalizing r with
  | nil => simp [escape]
  | cons c cs ih =>
    by_cases hc : c = '"'
    · subst hc
      have hclosed : r.step '"' = some { r with mode := .closed } := by simp [step, hr]
      have hopen : ({ r with mode := .closed } : Reader).step '"' = some (r.push .quoted '"') := by
        simp [step, push]
      rw [escape_cons_self, List.cons_append, List.cons_append, run, hclosed, Option.bind_some, run,
        hopen, Option.bind_some, ih rfl]
      simp [push, hr]
    · have hpush : r.step c = some (r.push .quoted c) := by simp [step, hr, hc]
      rw [escape_cons_of_ne hc, List.cons_append, run, hpush, Option.bind_some, ih rfl]
      simp [push, hr]

def Reader.Ends (r : Reader) : Prop := r.mode = .plain ∨ r.mode = .closed

theorem Reader.run_written (h : Written text s) (hr : r.mode = .start) (hfield : r.field = []) :
    ∃ r' : Reader, r'.Ends ∧ r'.records = r.records ∧ r'.fields = r.record ++ [s] ∧
      ∀ rest, r.run (text.toList ++ rest) = r'.run rest := by
  cases h with
  | plain hne h =>
    obtain ⟨c, cs, hs⟩ : ∃ c cs, text.toList = c :: cs :=
      List.exists_cons_of_ne_nil fun hnil => hne (String.toList_inj.mp hnil)
    rw [hs] at h
    have hc := h c List.mem_cons_self
    have hquote : c ≠ '"' := by
      rintro rfl
      cases hc
    refine ⟨{ r with field := c :: cs, mode := .plain }, .inl rfl, rfl, ?_, fun rest => ?_⟩
    · rw [fields, ← hs, String.ofList_toList]
    · have hstep : r.step c = some (r.push .plain c) := by simp [step, hr, hquote, hc]
      rw [hs, List.cons_append, run, hstep, Option.bind_some,
        run_plain (fun d hd => h d (List.mem_cons_of_mem c hd)) rfl]
      simp [push, hfield]
  | quoted =>
    refine ⟨{ r with field := s.toList, mode := .closed }, .inr rfl, rfl, ?_, fun rest => ?_⟩
    · rw [fields, String.ofList_toList]
    · have hopen : r.step '"' = some { r with mode := .quoted } := by simp [step, hr]
      have hclose : ({ r with field := r.field ++ s.toList, mode := .quoted } : Reader).step '"' =
          some { r with field := s.toList, mode := .closed } := by simp [step, hfield]
      have htext : ("\"" ++ String.ofList (escape '"' s.toList) ++ "\"").toList ++ rest =
          '"' :: (escape '"' s.toList ++ '"' :: rest) := by simp
      rw [htext, run, hopen, Option.bind_some, run_escape rfl, run, hclose, Option.bind_some]

theorem Reader.Ends.step_separator (h : r.Ends) {c : Char} (hc : isSpecial c) (hquote : c ≠ '"') :
    r.step c = r.separate c := by
  rcases h with h | h
  · simp [step, h, hc]
  · simp [step, h, hquote]

theorem Reader.Ends.finish (h : r.Ends) : r.finish = some (r.records ++ [r.fields]) := by
  rcases h with h | h <;> simp [Reader.finish, h]

theorem Reader.run_fields (h : List.Forall₂ Written texts record) (hne : texts ≠ [])
    (hr : r.mode = .start) (hfield : r.field = []) :
    ∃ r' : Reader, r'.Ends ∧ r'.records = r.records ∧ r'.fields = r.record ++ record ∧
      ∀ rest, r.run ((",".intercalate texts).toList ++ rest) = r'.run rest := by
  induction h generalizing r with
  | nil => exact absurd rfl hne
  | @cons t s texts record ht htexts ih =>
    obtain ⟨r', hends, hrecords, hfields, hrun⟩ := run_written ht hr hfield
    cases htexts with
    | nil =>
      rw [String.intercalate_singleton]
      exact ⟨r', hends, hrecords, hfields, hrun⟩
    | @cons u v texts record hu htexts =>
      have hcomma : r'.step ',' = some { records := r'.records, record := r'.fields } :=
        hends.step_separator rfl (by decide)
      obtain ⟨r'', hends', hrecords', hfields', hrun'⟩ :=
        ih (r := { records := r'.records, record := r'.fields }) (List.cons_ne_nil u texts) rfl rfl
      refine ⟨r'', hends', hrecords'.trans hrecords, ?_, fun rest => ?_⟩
      · rw [hfields', hfields, List.append_assoc]
        rfl
      · rw [String.intercalate_cons_cons, String.append_assoc, String.toList_append,
          List.append_assoc, hrun, String.toList_append, List.append_assoc]
        rw [show ",".toList = [','] from rfl, List.singleton_append, run, hcomma,
          Option.bind_some, hrun']

theorem Reader.run_lines {lines : List String} {records : List (List String)}
    (h : List.Forall₂ WrittenLine lines records) (hne : lines ≠ [])
    (heol : eol = "\n" ∨ eol = "\r\n") :
    (({ records := r.records } : Reader).run (eol.intercalate lines).toList).bind finish =
      some (r.records ++ records) := by
  induction h generalizing r with
  | nil => exact absurd rfl hne
  | @cons line record lines records hline hlines ih =>
    obtain ⟨texts, htexts, rfl, hwritten⟩ := hline
    obtain ⟨r', hends, hrecords, hfields, hrun⟩ :=
      run_fields (r := { records := r.records }) hwritten htexts rfl rfl
    rw [List.nil_append] at hfields
    cases hlines with
    | nil =>
      rw [String.intercalate_singleton, ← List.append_nil (String.toList _), hrun, run,
        Option.bind_some, hends.finish, hrecords, hfields]
    | @cons line' record' lines records hline' hlines =>
      have heols : ∀ rest, r'.run (eol.toList ++ rest) =
          ({ records := r.records ++ [record] } : Reader).run rest := by
        intro rest
        rcases heol with rfl | rfl
        · have hstep : r'.step '\n' = some { records := r.records ++ [record] } := by
            rw [hends.step_separator rfl (by decide), separate, hrecords, hfields]
            rfl
          rw [show "\n".toList = ['\n'] from rfl, List.singleton_append, run, hstep,
            Option.bind_some]
        · have hstep : r'.step '\r' = some { r' with mode := .carriage } :=
            hends.step_separator rfl (by decide)
          have hstep' : ({ r' with mode := .carriage } : Reader).step '\n' =
              some { records := r.records ++ [record] } := by
            rw [← hrecords, ← hfields]
            rfl
          rw [show "\r\n".toList = ['\r', '\n'] from rfl, List.cons_append, run, hstep,
            Option.bind_some, List.singleton_append, run, hstep', Option.bind_some]
      have hrest := ih (r := { records := r.records ++ [record] }) (List.cons_ne_nil _ _)
      rw [String.intercalate_cons_cons, String.append_assoc, String.toList_append, hrun,
        String.toList_append, heols, hrest, List.append_assoc]
      rfl

theorem read_lines {lines : List String} {records : List (List String)}
    (h : List.Forall₂ WrittenLine lines records) (hne : lines ≠ [])
    (heol : eol = "\n" ∨ eol = "\r\n") : read (eol.intercalate lines) = some records :=
  Reader.run_lines (r := {}) h hne heol

end Laws

end Foundations.Csv

import Mayhem.Lib.Markers

/-!
This module contains the text and the tool calls that a provider shows while the model writes them.
-/

namespace Mayhem

namespace Provider

open Markers

abbrev Text := List Char

def whitespace : List Nat :=
  [9, 10, 11, 12, 13, 32, 0x85, 0xa0, 0x1680] ++ List.range' 0x2000 11 ++ [0x2028, 0x2029, 0x202f, 0x205f, 0x3000]

def trimStart (text : Text) : Text := text.dropWhile fun c => c.toNat ∈ whitespace

def startsJson (text : Text) : Bool := text.head? = some '{' ∨ text.head? = some '['

def suffixPrefixLen (text marker : Text) : Nat :=
  ((List.range' 1 (marker.length - 1)).reverse.find? fun length => marker.take length <:+ text).getD 0

inductive ToolStrategy where
  | mayhemJson
  | openAiToolCalls
  | qwenFunctionXml
  | gemmaFunctionCall

def ToolStrategy.marker : ToolStrategy → Text
  | .qwenFunctionXml => "<tool_call>".toList
  | .gemmaFunctionCall => "<|tool_call>call:".toList
  | .mayhemJson | .openAiToolCalls => []

structure ToolSpec (Schema : Type) where
  name : Text
  parameters : Schema

structure ToolDelta where
  index : Nat
  name : Option Text
  arguments : Text

structure Delta where
  text : Text
  tools : List ToolDelta

structure Readers (Schema : Type) where
  parseString : Text → Option Text
  jsonPreviews : Text → List (Text × Text)
  qwenPreviews : Text → List (ToolSpec Schema) → List (Text × Text)
  gemmaPreviews : Text → List (Text × Text)

def closingQuote : Bool → Text → Option Nat
  | _, [] => none
  | true, _ :: text => (closingQuote false text).map (· + 1)
  | false, c :: text =>
    if c = '"' then some 0 else (closingQuote (c = '\\') text).map (· + 1)

def jsonString (parseString : Text → Option Text) : Text → Option (Text × Nat)
  | '"' :: text => do
    let index ← closingQuote false text
    let value ← parseString ('"' :: text.take (index + 1))
    return (value, index + 2)
  | _ => none

def toolKeys : List Text :=
  ["tool_calls", "tool", "name", "function", "id", "arguments"].map String.toList

def jsonToolPrefix (parseString : Text → Option Text) (text : Text) : Option Bool :=
  match text.dropWhile (· ∈ ['[', ' ', '\n', '\r', '\t']) with
  | [] => none
  | '{' :: rest => (jsonString parseString (trimStart rest)).map fun key => decide (key.1 ∈ toolKeys)
  | _ => some false

structure OutputStream (Schema : Type) where
  strategy : ToolStrategy
  tools : List (ToolSpec Schema)
  pending : Text
  toolText : Text
  inTools : Bool
  jsonProbe : Bool
  emitted : List (Text × Text)
  text : Text

variable {Schema : Type}

def emit (tools : List (ToolSpec Schema)) :
    Nat → List (Text × Text) → List (Text × Text) → List (Text × Text) × List ToolDelta
  | _, [], emitted => (emitted, [])
  | index, (name, arguments) :: previews, emitted =>
    if ¬ tools.any (·.name = name) then (emitted, [])
    else if index = emitted.length then
      let rest := emit tools (index + 1) previews (emitted ++ [(name, arguments)])
      (rest.1, ⟨index, some name, arguments⟩ :: rest.2)
    else
      match emitted[index]?.filter fun old => old.1 = name ∧ old.2 <+: arguments ∧ old.2 ≠ arguments with
      | none => emit tools (index + 1) previews emitted
      | some old =>
        let rest := emit tools (index + 1) previews (emitted.set index (name, arguments))
        (rest.1, ⟨index, none, arguments.drop old.2.length⟩ :: rest.2)

namespace OutputStream

def new (strategy : ToolStrategy) (tools : List (ToolSpec Schema)) : OutputStream Schema :=
  ⟨strategy, tools, [], [], false, true, [], []⟩

variable (readers : Readers Schema) (s : OutputStream Schema)

def previews : List (Text × Text) :=
  if startsJson (trimStart s.toolText) then readers.jsonPreviews s.toolText
  else
    match s.strategy with
    | .qwenFunctionXml => readers.qwenPreviews s.toolText s.tools
    | .gemmaFunctionCall => readers.gemmaPreviews s.toolText
    | .mayhemJson | .openAiToolCalls => []

def pushTools (shown calls : Text) : OutputStream Schema × Delta :=
  let next := { s with pending := [], toolText := s.toolText ++ calls, inTools := true, text := s.text ++ shown }
  let result := emit next.tools 0 (next.previews readers) next.emitted
  ({ next with emitted := result.1 }, ⟨shown, result.2⟩)

def pushText (pending : Text) : OutputStream Schema × Delta :=
  if s.strategy.marker = [] then
    ({ s with pending := [], jsonProbe := false, text := s.text ++ pending }, ⟨pending, []⟩)
  else
    match find s.strategy.marker pending with
    | some index => { s with jsonProbe := false }.pushTools readers (pending.take index) (pending.drop index)
    | none =>
      let shown := pending.length - suffixPrefixLen pending s.strategy.marker
      ({ s with
        pending := pending.drop shown
        jsonProbe := false
        text := s.text ++ pending.take shown }, ⟨pending.take shown, []⟩)

def push (piece : Text) : OutputStream Schema × Delta :=
  if s.inTools then s.pushTools readers [] piece
  else
    let pending := s.pending ++ piece
    let trimmed := trimStart pending
    if s.jsonProbe ∧ (trimmed = [] ∨ startsJson trimmed) then
      match (if trimmed = [] then none else jsonToolPrefix readers.parseString trimmed) with
      | some true => s.pushTools readers [] pending
      | some false => s.pushText readers pending
      | none => ({ s with pending := pending }, ⟨[], []⟩)
    else s.pushText readers pending

def finishText (hasTools : Bool) : OutputStream Schema × Text :=
  if hasTools then (s, [])
  else if s.inTools ∧ s.emitted = [] then
    ({ s with toolText := [], text := s.text ++ s.toolText }, s.toolText)
  else ({ s with pending := [], text := s.text ++ s.pending }, s.pending)

def pushAll (s : OutputStream Schema) : List Text → OutputStream Schema × List Delta
  | [] => (s, [])
  | piece :: pieces =>
    let rest := pushAll (s.push readers piece).1 pieces
    (rest.1, (s.push readers piece).2 :: rest.2)

def held : Text := if s.inTools then s.toolText else s.pending

structure Quiet : Prop where
  emitted_eq : s.emitted = []
  toolText_eq : s.inTools = false → s.toolText = []

end OutputStream

theorem emit_nil {tools : List (ToolSpec Schema)} {previews : List (Text × Text)}
    (h : (emit tools 0 previews []).2 = []) : (emit tools 0 previews []).1 = [] := by
  cases previews with
  | nil => rfl
  | cons _ previews =>
    rw [emit] at h ⊢
    split
    . rfl
    . next hadvertised =>
      rw [if_neg hadvertised, List.length_nil, if_pos rfl] at h
      cases h

/--
What a client that was sent the calls so far makes of a delta. It knows the tools and takes the calls in order.
-/
def assemble (tools : List (ToolSpec Schema)) (calls : List (Text × Text)) (delta : ToolDelta) :
    Option (List (Text × Text)) :=
  match delta.name with
  | some name =>
    if delta.index = calls.length ∧ tools.any (·.name = name) then some (calls ++ [(name, delta.arguments)])
    else none
  | none => calls[delta.index]?.map fun call => calls.set delta.index (call.1, call.2 ++ delta.arguments)

theorem emit_assemble (tools : List (ToolSpec Schema)) (index : Nat) (previews emitted : List (Text × Text)) :
    (emit tools index previews emitted).2.foldlM (assemble tools) emitted =
      some (emit tools index previews emitted).1 := by
  induction previews generalizing index emitted with
  | nil => rfl
  | cons preview previews ih =>
    obtain ⟨name, arguments⟩ := preview
    rw [emit]
    split
    . rfl
    . next hadvertised =>
      split
      . next hnew =>
        have hcall : assemble tools emitted ⟨index, some name, arguments⟩ =
          some (emitted ++ [(name, arguments)]) :=
          if_pos ⟨hnew, not_not.mp hadvertised⟩
        dsimp only
        rw [List.foldlM_cons, hcall]
        exact ih _ _
      . split
        . exact ih _ _
        . next old hold =>
          obtain ⟨hget, hgrown⟩ := Option.filter_eq_some_iff.mp hold
          obtain ⟨rfl, hgrown, -⟩ := of_decide_eq_true hgrown
          have hcall : assemble tools emitted ⟨index, none, arguments.drop old.2.length⟩ =
              some (emitted.set index (old.1, arguments)) := by
            rw [assemble, hget, Option.map_some, List.prefix_iff_eq_append.mp hgrown]
          dsimp only
          rw [List.foldlM_cons, hcall]
          exact ih _ _

namespace OutputStream

variable {readers : Readers Schema} {s : OutputStream Schema}

theorem pushTools_quiet {shown calls : Text} (hemitted : s.emitted = [])
    (hnone : (s.pushTools readers shown calls).2.tools = []) : (s.pushTools readers shown calls).1.Quiet := by
  refine ⟨?_, fun h => by cases h⟩
  dsimp only [pushTools] at hnone ⊢
  rw [hemitted] at hnone ⊢
  exact emit_nil hnone

theorem pushText_quiet {pending : Text} (h : s.Quiet) (hin : s.inTools = false)
    (hnone : (s.pushText readers pending).2.tools = []) :
    (s.pushText readers pending).1.Quiet ∧
      (s.pushText readers pending).2.text ++ (s.pushText readers pending).1.held = pending := by
  unfold pushText at hnone ⊢
  split at hnone
  . next hmarker =>
    rw [if_pos hmarker]
    exact ⟨⟨h.emitted_eq, h.toolText_eq⟩, by simp [held, hin]⟩
  . next hmarker =>
    rw [if_neg hmarker]
    split at hnone
    . refine ⟨pushTools_quiet h.emitted_eq hnone, ?_⟩
      simp [held, pushTools, h.toolText_eq hin]
    . exact ⟨⟨h.emitted_eq, h.toolText_eq⟩, by simp [held, hin]⟩

theorem push_quiet {piece : Text} (h : s.Quiet) (hnone : (s.push readers piece).2.tools = []) :
    (s.push readers piece).1.Quiet ∧
      (s.push readers piece).2.text ++ (s.push readers piece).1.held = s.held ++ piece := by
  unfold push at hnone ⊢
  by_cases hin : s.inTools
  . rw [if_pos hin] at hnone ⊢
    refine ⟨pushTools_quiet h.emitted_eq hnone, ?_⟩
    simp [held, pushTools, hin]
  . rw [if_neg hin] at hnone ⊢
    rw [Bool.not_eq_true] at hin
    have hheld : s.held = s.pending := by simp [held, hin]
    rw [hheld]
    dsimp only at hnone ⊢
    split at hnone
    . next hprobe =>
      rw [if_pos hprobe]
      split at hnone
      . refine ⟨pushTools_quiet h.emitted_eq hnone, ?_⟩
        simp [held, pushTools, h.toolText_eq hin]
      . exact pushText_quiet h hin hnone
      . exact ⟨⟨h.emitted_eq, h.toolText_eq⟩, by simp [held, hin]⟩
    . next hprobe =>
      rw [if_neg hprobe]
      exact pushText_quiet h hin hnone

theorem pushAll_quiet {pieces : List Text} (h : s.Quiet)
    (hnone : ∀ delta ∈ (s.pushAll readers pieces).2, delta.tools = []) :
    (s.pushAll readers pieces).1.Quiet ∧ ((s.pushAll readers pieces).2.map Delta.text).flatten ++
      (s.pushAll readers pieces).1.held = s.held ++ pieces.flatten := by
  induction pieces generalizing s with
  | nil => exact ⟨h, by simp [pushAll]⟩
  | cons _ pieces ih =>
    rw [pushAll] at hnone
    obtain ⟨hpiece, hpieces⟩ := List.forall_mem_cons.mp hnone
    obtain ⟨hnext, hshown⟩ := push_quiet h hpiece
    obtain ⟨hlast, hrest⟩ := ih hnext hpieces
    refine ⟨hlast, ?_⟩
    rw [pushAll, List.map_cons, List.flatten_cons, List.flatten_cons, List.append_assoc, hrest,
      ← List.append_assoc, hshown, List.append_assoc]

/--
Where no tool call is emitted, what is shown of the pieces and what is given at the end are the whole text.
-/
theorem text_complete (readers : Readers Schema) (strategy : ToolStrategy) (tools : List (ToolSpec Schema))
    (pieces : List Text)
    (hnone : ∀ delta ∈ ((new strategy tools).pushAll readers pieces).2, delta.tools = []) :
    (((new strategy tools).pushAll readers pieces).2.map Delta.text).flatten ++
      (((new strategy tools).pushAll readers pieces).1.finishText false).2 = pieces.flatten := by
  have hstart : (new strategy tools).Quiet := ⟨rfl, fun _ => rfl⟩
  obtain ⟨hquiet, hshown⟩ := pushAll_quiet hstart hnone
  have htail (s : OutputStream Schema) (h : s.Quiet) : (s.finishText false).2 = s.held := by
    simp only [finishText, h.emitted_eq, held, Bool.false_eq_true, if_false, and_true]
    split <;> rfl
  rw [htail _ hquiet, hshown]
  rfl

def silentReaders : Readers Unit := ⟨fun _ => none, fun _ => [], fun _ _ => [], fun _ => []⟩

/--
The marker of a tool call comes in two pieces, and no call follows it.
-/
theorem text_complete_marker :
    let result := (new .qwenFunctionXml []).pushAll silentReaders ["a<tool_".toList, "call> b".toList]
    result.2.map Delta.text = [['a'], []] ∧ (result.1.finishText false).2 = "<tool_call> b".toList ∧
      (result.2.map Delta.text).flatten ++ (result.1.finishText false).2 = "a<tool_call> b".toList := by
  intro result
  refine ⟨by decide +kernel, by decide +kernel, ?_⟩
  exact text_complete silentReaders .qwenFunctionXml [] _ (by decide +kernel)

theorem pushText_assemble (pending : Text) :
    (s.pushText readers pending).2.tools.foldlM (assemble s.tools) s.emitted =
    some (s.pushText readers pending).1.emitted ∧ (s.pushText readers pending).1.tools = s.tools := by
  unfold pushText
  split
  . exact ⟨rfl, rfl⟩
  . split
    . exact ⟨emit_assemble _ _ _ _, rfl⟩
    . exact ⟨rfl, rfl⟩

theorem push_assemble (piece : Text) : (s.push readers piece).2.tools.foldlM (assemble s.tools) s.emitted =
    some (s.push readers piece).1.emitted ∧ (s.push readers piece).1.tools = s.tools := by
  unfold push
  split
  . exact ⟨emit_assemble _ _ _ _, rfl⟩
  . dsimp only
    split
    . split
      . exact ⟨emit_assemble _ _ _ _, rfl⟩
      . exact pushText_assemble _
      . exact ⟨rfl, rfl⟩
    . exact pushText_assemble _

/--
In every run a client gets each advertised call announced once and in order, and has the
calls as the stream has them.
-/
theorem calls_reassembled (readers : Readers Schema) (s : OutputStream Schema) (pieces : List Text) :
    ((s.pushAll readers pieces).2.flatMap Delta.tools).foldlM (assemble s.tools) s.emitted =
      some (s.pushAll readers pieces).1.emitted := by
  induction pieces generalizing s with
  | nil => rfl
  | cons piece pieces ih =>
    obtain ⟨hpiece, htools⟩ := @push_assemble _ readers s piece
    rw [pushAll, List.flatMap_cons, List.foldlM_append, hpiece, ← htools]
    exact ih _

end OutputStream

end Provider

end Mayhem

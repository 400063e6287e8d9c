import ParrotServe.Framework.Runs
import ParrotServe.Framework.TransitionSystem
import ParrotServe.Model.RequestChain

/-!
# Text contexts and the requests of the OpenAI engine

`TextContext` (`parrot/engine/context/text_context.py`) and `_execute_job` of
`parrot/engine/openai/openai_engine.py`.

A context, a `TextChunk` and a message are objects.  A chunk and a message have the same two parts,
a role and a text (`message["content"]`), and share one store, so that what the `+=` of
`get_whole_chat_messages` writes to is not settled by its type.  Freeing a context takes it out of
the map of the context manager; the object stays with the contexts that point to it, and its text
with them.

A parent is an older object than its child, so the recursions to the root take the reference of
the object as fuel.
-/

namespace ParrotServe

/-- The role of a chunk or message. -/
inductive Role
  | user
  | assistant
  deriving DecidableEq, Repr

/-- `TextChunk`, and a message of `get_whole_chat_messages`. -/
structure TextChunk where
  text : Text
  role : Role
  deriving DecidableEq, Repr

/-- A chunk or message, as an object. -/
abbrev TextRef := ℕ

/-- A context, as an object. -/
abbrev TextCtxRef := ℕ

/-- `TextContext`. -/
structure TextContext where
  parentContext : Option TextCtxRef := none
  textChunks : List TextRef := []

/-- The objects of the engine. -/
structure TextHeap where
  context : TextCtxRef → TextContext
  nextContext : TextCtxRef
  obj : TextRef → TextChunk
  nextObj : TextRef

namespace TextHeap

/-- No object. -/
def empty : TextHeap where
  context _ := {}
  nextContext := 0
  obj _ := { text := [], role := .user }
  nextObj := 0

variable (h : TextHeap)

/-- A new chunk or message. -/
def newObject (o : TextChunk) : TextRef × TextHeap :=
  (h.nextObj, { h with obj := Function.update h.obj h.nextObj o, nextObj := h.nextObj + 1 })

/-- A new context. -/
def newContext (parent : Option TextCtxRef) : TextHeap :=
  { h with
    context := Function.update h.context h.nextContext { parentContext := parent }
    nextContext := h.nextContext + 1 }

/-- `append_text`. -/
def appendText (r : TextCtxRef) (content : Text) (roleIsUser : Bool) : TextHeap :=
  let chunk : TextChunk := { text := content, role := if roleIsUser then .user else .assistant }
  let (c, h) := h.newObject chunk
  { h with
    context := Function.update h.context r
      { h.context r with textChunks := (h.context r).textChunks ++ [c] } }

/-! ## `get_whole_context_text` -/

/-- The recursion of `get_whole_context_text`. -/
def getWholeContextTextAux : ℕ → TextCtxRef → Text
  | 0, _ => []
  | fuel + 1, r =>
      let texts := (h.context r).textChunks.map fun c => (h.obj c).text
      (match (h.context r).parentContext with
        | none => []
        | some p => getWholeContextTextAux fuel p) ++ texts.flatten

/-- `get_whole_context_text`. -/
def getWholeContextText (r : TextCtxRef) : Text := h.getWholeContextTextAux (r + 1) r

/-! ## `get_whole_chat_messages` -/

/-- The messages of a list of chunks. -/
def newMessages : List TextRef → TextHeap → List TextRef × TextHeap
  | [], h => ([], h)
  | c :: cs, h =>
      let (message, h) := h.newObject (h.obj c)
      let (messages, h) := newMessages cs h
      (message :: messages, h)

/-- `message["content"] += content`. -/
def addContent (message : TextRef) (content : Text) : TextHeap :=
  let o := h.obj message
  { h with obj := Function.update h.obj message { o with text := o.text ++ content } }

/-- The loop that merges messages with the same role. -/
def mergeMessages : List TextRef → List TextRef → TextHeap → List TextRef × TextHeap
  | mergedMessages, [], h => (mergedMessages, h)
  | mergedMessages, message :: messages, h =>
      match mergedMessages.getLast? with
      | none => mergeMessages (mergedMessages ++ [message]) messages h
      | some last =>
          if (h.obj last).role = (h.obj message).role then
            mergeMessages mergedMessages messages (h.addContent last (h.obj message).text)
          else mergeMessages (mergedMessages ++ [message]) messages h

/-- The recursion of `get_whole_chat_messages`. -/
def getWholeChatMessagesAux : ℕ → TextCtxRef → TextHeap → List TextRef × TextHeap
  | 0, _, h => ([], h)
  | fuel + 1, r, h =>
      let (messages, h₁) := newMessages (h.context r).textChunks h
      match (h.context r).parentContext with
      | none => mergeMessages [] messages h₁
      | some p =>
          let (parentMessages, h₂) := getWholeChatMessagesAux fuel p h₁
          mergeMessages [] (parentMessages ++ messages) h₂

/-- `get_whole_chat_messages`. -/
def getWholeChatMessages (r : TextCtxRef) : List TextRef × TextHeap :=
  getWholeChatMessagesAux (r + 1) r h

end TextHeap

/-! ## `_execute_job` -/

/-- `Endpoint`. -/
inductive Endpoint
  | completion
  | chat
  deriving DecidableEq

/-- What a Generate sends to the API. -/
inductive ApiRequest
  | prompt (text : Text)
  | messages (messages : List TextRef)

namespace TextHeap

variable (h : TextHeap)

/-- A Fill fills its context. -/
def executeFill (r : TextCtxRef) (text : Text) : TextHeap := h.appendText r text true

/-- A Generate, up to its request. -/
def submitGenerate (endpoint : Endpoint) (r : TextCtxRef) : ApiRequest × TextHeap :=
  match endpoint with
  | .completion => (.prompt (h.getWholeContextText r), h)
  | .chat =>
      let (messages, h) := h.getWholeChatMessages r
      (.messages messages, h)

/-- A Generate, from the answer on. -/
def finishGenerate (r : TextCtxRef) (generatedResult : Text) : TextHeap :=
  h.appendText r generatedResult false

/-! ## Runs -/

/-- What happens to the contexts of an engine.  Jobs run concurrently: others may run between the
request of a Generate and its answer. -/
inductive Action
  | newContext (parent : Option TextCtxRef)
  | executeFill (r : TextCtxRef) (text : Text)
  | submitGenerate (endpoint : Endpoint) (r : TextCtxRef)
  | finishGenerate (r : TextCtxRef) (generatedResult : Text)

/-- The contexts of an action are there. -/
def Enabled : Action → Prop
  | .newContext parent => ∀ p ∈ parent, p < h.nextContext
  | .executeFill r _ => r < h.nextContext
  | .submitGenerate _ r => r < h.nextContext
  | .finishGenerate r _ => r < h.nextContext

instance : ∀ a, Decidable (h.Enabled a)
  | .newContext parent => inferInstanceAs (Decidable (∀ p ∈ parent, p < h.nextContext))
  | .executeFill r _ => inferInstanceAs (Decidable (r < h.nextContext))
  | .submitGenerate _ r => inferInstanceAs (Decidable (r < h.nextContext))
  | .finishGenerate r _ => inferInstanceAs (Decidable (r < h.nextContext))

/-- The effect of an action. -/
def apply : Action → TextHeap
  | .newContext parent => h.newContext parent
  | .executeFill r text => h.executeFill r text
  | .submitGenerate endpoint r => (h.submitGenerate endpoint r).2
  | .finishGenerate r generatedResult => h.finishGenerate r generatedResult

/-- Every order of these actions. -/
def system : TransitionSystem TextHeap Action := .ofFun empty Enabled apply

end TextHeap

end ParrotServe

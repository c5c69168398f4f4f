import Walkthrough.Value.Conversion

/-! The values that expressions see: replies of the user, responses of calls, and the clock. Every
write makes a new context, so older ones stay as they are. -/
namespace Walkthrough

structure Context where
  replies : Entries Unit
  responses : Entries Unit
  now : Instant

namespace Context

def empty (now : Instant) : Context := ⟨[], [], now⟩

def withReplies (c : Context) (values : Entries Unit) : Context :=
  { c with replies := c.replies.merge values }

def withResponse (c : Context) (name : String) (payload : Data) : Context :=
  { c with responses := c.responses.insert (.text name) payload }

/-- The map that paths are resolved against. -/
def toData (c : Context) : Data :=
  .ofEntries [(.text "replies", .ofEntries c.replies),
    (.text "api_responses", .ofEntries c.responses), (.text "now", .atom (.instant c.now))]

end Context

end Walkthrough

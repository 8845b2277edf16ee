import PointSymbol.Color.Css
import PointSymbol.Log.Logged

/-!
# Paints

A paint is a color text or channels. A resolver gives channels to a text or rejects it; `css` reads
it as a CSS color, and callers may have resolvers of their own.
-/

namespace PointSymbol.Color

inductive Paint where
  | text (text : String)
  | channels (channels : Channels)
  deriving BEq, DecidableEq

abbrev Resolver := String → Except Error Channels

namespace Resolver

def css : Resolver := fun text => (Rgba.parse text).map Rgba.channels

end Resolver

/-- Asks the resolver for a text only, and records what it answered. -/
def Paint.resolve (resolver : Resolver) : Paint → Logged Error Channels
  | channels c => pure c
  | text t => do
    let c ← resolver t
    Logged.record (.colorResolved t c)
    return c

end PointSymbol.Color

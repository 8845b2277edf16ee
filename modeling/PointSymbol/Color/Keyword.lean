import PointSymbol.Color.Rgba

/-!
# Color keywords

The table of named colors and its search. Names are in lower case and in increasing order, so a
binary search finds a name if the table holds it.
-/

namespace PointSymbol.Color.Keyword

def table : Array (String × Rgba) :=
  #[("aliceblue", .solid 240 248 255), ("antiquewhite", .solid 250 235 215),
    ("aqua", .solid 0 255 255), ("aquamarine", .solid 127 255 212), ("azure", .solid 240 255 255),
    ("beige", .solid 245 245 220), ("bisque", .solid 255 228 196), ("black", .solid 0 0 0),
    ("blanchedalmond", .solid 255 235 205), ("blue", .solid 0 0 255),
    ("blueviolet", .solid 138 43 226), ("brown", .solid 165 42 42),
    ("burlywood", .solid 222 184 135), ("cadetblue", .solid 95 158 160),
    ("chartreuse", .solid 127 255 0), ("chocolate", .solid 210 105 30),
    ("coral", .solid 255 127 80), ("cornflowerblue", .solid 100 149 237),
    ("cornsilk", .solid 255 248 220), ("crimson", .solid 220 20 60), ("cyan", .solid 0 255 255),
    ("darkblue", .solid 0 0 139), ("darkcyan", .solid 0 139 139),
    ("darkgoldenrod", .solid 184 134 11), ("darkgray", .solid 169 169 169),
    ("darkgreen", .solid 0 100 0), ("darkgrey", .solid 169 169 169),
    ("darkkhaki", .solid 189 183 107), ("darkmagenta", .solid 139 0 139),
    ("darkolivegreen", .solid 85 107 47), ("darkorange", .solid 255 140 0),
    ("darkorchid", .solid 153 50 204), ("darkred", .solid 139 0 0),
    ("darksalmon", .solid 233 150 122), ("darkseagreen", .solid 143 188 143),
    ("darkslateblue", .solid 72 61 139), ("darkslategray", .solid 47 79 79),
    ("darkslategrey", .solid 47 79 79), ("darkturquoise", .solid 0 206 209),
    ("darkviolet", .solid 148 0 211), ("deeppink", .solid 255 20 147),
    ("deepskyblue", .solid 0 191 255), ("dimgray", .solid 105 105 105),
    ("dimgrey", .solid 105 105 105), ("dodgerblue", .solid 30 144 255),
    ("firebrick", .solid 178 34 34), ("floralwhite", .solid 255 250 240),
    ("forestgreen", .solid 34 139 34), ("fuchsia", .solid 255 0 255),
    ("gainsboro", .solid 220 220 220), ("ghostwhite", .solid 248 248 255),
    ("gold", .solid 255 215 0), ("goldenrod", .solid 218 165 32), ("gray", .solid 128 128 128),
    ("green", .solid 0 128 0), ("greenyellow", .solid 173 255 47), ("grey", .solid 128 128 128),
    ("honeydew", .solid 240 255 240), ("hotpink", .solid 255 105 180),
    ("indianred", .solid 205 92 92), ("indigo", .solid 75 0 130), ("ivory", .solid 255 255 240),
    ("khaki", .solid 240 230 140), ("lavender", .solid 230 230 250),
    ("lavenderblush", .solid 255 240 245), ("lawngreen", .solid 124 252 0),
    ("lemonchiffon", .solid 255 250 205), ("lightblue", .solid 173 216 230),
    ("lightcoral", .solid 240 128 128), ("lightcyan", .solid 224 255 255),
    ("lightgoldenrodyellow", .solid 250 250 210), ("lightgray", .solid 211 211 211),
    ("lightgreen", .solid 144 238 144), ("lightgrey", .solid 211 211 211),
    ("lightpink", .solid 255 182 193), ("lightsalmon", .solid 255 160 122),
    ("lightseagreen", .solid 32 178 170), ("lightskyblue", .solid 135 206 250),
    ("lightslategray", .solid 119 136 153), ("lightslategrey", .solid 119 136 153),
    ("lightsteelblue", .solid 176 196 222), ("lightyellow", .solid 255 255 224),
    ("lime", .solid 0 255 0), ("limegreen", .solid 50 205 50), ("linen", .solid 250 240 230),
    ("magenta", .solid 255 0 255), ("maroon", .solid 128 0 0),
    ("mediumaquamarine", .solid 102 205 170), ("mediumblue", .solid 0 0 205),
    ("mediumorchid", .solid 186 85 211), ("mediumpurple", .solid 147 112 219),
    ("mediumseagreen", .solid 60 179 113), ("mediumslateblue", .solid 123 104 238),
    ("mediumspringgreen", .solid 0 250 154), ("mediumturquoise", .solid 72 209 204),
    ("mediumvioletred", .solid 199 21 133), ("midnightblue", .solid 25 25 112),
    ("mintcream", .solid 245 255 250), ("mistyrose", .solid 255 228 225),
    ("moccasin", .solid 255 228 181), ("navajowhite", .solid 255 222 173), ("navy", .solid 0 0 128),
    ("oldlace", .solid 253 245 230), ("olive", .solid 128 128 0), ("olivedrab", .solid 107 142 35),
    ("orange", .solid 255 165 0), ("orangered", .solid 255 69 0), ("orchid", .solid 218 112 214),
    ("palegoldenrod", .solid 238 232 170), ("palegreen", .solid 152 251 152),
    ("paleturquoise", .solid 175 238 238), ("palevioletred", .solid 219 112 147),
    ("papayawhip", .solid 255 239 213), ("peachpuff", .solid 255 218 185),
    ("peru", .solid 205 133 63), ("pink", .solid 255 192 203), ("plum", .solid 221 160 221),
    ("powderblue", .solid 176 224 230), ("purple", .solid 128 0 128),
    ("rebeccapurple", .solid 102 51 153), ("red", .solid 255 0 0),
    ("rosybrown", .solid 188 143 143), ("royalblue", .solid 65 105 225),
    ("saddlebrown", .solid 139 69 19), ("salmon", .solid 250 128 114),
    ("sandybrown", .solid 244 164 96), ("seagreen", .solid 46 139 87),
    ("seashell", .solid 255 245 238), ("sienna", .solid 160 82 45), ("silver", .solid 192 192 192),
    ("skyblue", .solid 135 206 235), ("slateblue", .solid 106 90 205),
    ("slategray", .solid 112 128 144), ("slategrey", .solid 112 128 144),
    ("snow", .solid 255 250 250), ("springgreen", .solid 0 255 127),
    ("steelblue", .solid 70 130 180), ("tan", .solid 210 180 140), ("teal", .solid 0 128 128),
    ("thistle", .solid 216 191 216), ("tomato", .solid 255 99 71), ("turquoise", .solid 64 224 208),
    ("violet", .solid 238 130 238), ("wheat", .solid 245 222 179), ("white", .solid 255 255 255),
    ("whitesmoke", .solid 245 245 245), ("yellow", .solid 255 255 0),
    ("yellowgreen", .solid 154 205 50)]

/-- Binary search for a name among the entries from `low` up to but not including `high`. -/
def search (entries : Array (String × Rgba)) (name : String) (low high : Nat) : Option Rgba :=
  if _ : low < high then
    let middle := (low + high) / 2
    match entries[middle]? with
    | none => none
    | some (key, color) =>
      if key < name then search entries name (middle + 1) high
      else if name < key then search entries name low middle
      else some color
  else none
termination_by high - low

def find? (name : String) : Option Rgba :=
  if name = "transparent" then some .transparent else search table name 0 table.size

theorem table_increasing :
    (table.toList.zip table.toList.tail).all fun (a, b) => a.1 < b.1 := by decide +kernel

end PointSymbol.Color.Keyword

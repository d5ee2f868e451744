import Courier.Body.Multipart.Reader
import Courier.Proofs.Body.Walk
import Courier.Proofs.Text.Cut
import Courier.Proofs.Text.Utf8
import Mathlib.Data.List.Infix
/-!
Multipart bodies are uniquely decodable.

A body is the delimiter, then each part up to the next delimiter, then the closing mark. Nothing in
it is escaped or counted, so the reader depends on where the delimiter can occur: a content without
the delimiter does not hold it, and with no carriage return in the boundary an occurrence cannot lie
across the end of the content either. `multipart_uniquely_decodable` is the main result.
-/

namespace Courier.Multipart

/-- What a leaf is written as. Only a file that is the whole document goes by its own field name. -/
def partOf : KeyPath × Leaf → Option Part
  | (path, .scalar text) => some ⟨path.render, none, Utf8.encode text⟩
  | ([], .file f) => some ⟨f.fieldName, some (f.fileName, f.contentType), f.bytes⟩
  | (s :: path, .file f) =>
    some ⟨KeyPath.render (s :: path), some (f.fileName, f.contentType), f.bytes⟩
  | (_, .unsupported _) => none

def parts (v : Value) : List Part := v.leaves.filterMap partOf

/-- The names of a part stay within their quotes and lines, and its content is free of the
delimiter. A lone line feed in a name does no harm. -/
structure Clear (b : Boundary) (p : Part) : Prop where
  name : '"' ∉ p.name.toList ∧ '\r' ∉ p.name.toList
  fileName : ∀ f ∈ p.file, '"' ∉ f.1.toList ∧ '\r' ∉ f.1.toList
  contentType : ∀ f ∈ p.file, '\r' ∉ f.2.toList
  content : ¬ delimiter b <:+: p.content

instance (b : Boundary) (p : Part) : Decidable (Clear b p) :=
  decidable_of_iff (('"' ∉ p.name.toList ∧ '\r' ∉ p.name.toList) ∧
    (∀ f ∈ p.file, '"' ∉ f.1.toList ∧ '\r' ∉ f.1.toList) ∧
    (∀ f ∈ p.file, '\r' ∉ f.2.toList) ∧ ¬ delimiter b <:+: p.content)
    ⟨fun ⟨h1, h2, h3, h4⟩ => ⟨h1, h2, h3, h4⟩, fun ⟨h1, h2, h3, h4⟩ => ⟨h1, h2, h3, h4⟩⟩

/-- The document can be framed with this boundary. -/
structure Framable (b : Boundary) (v : Value) : Prop where
  supported : ∀ l ∈ v.leaves, (partOf l).isSome
  clear : ∀ p ∈ parts v, Clear b p

theorem lineEnd_eq : lineEnd = [13, 10] := by decide

theorem quoteMark_eq : quoteMark = [34] := by decide

theorem return_not_mem {text : String} (h : '\r' ∉ text.toList) : 13 ∉ Utf8.encode text :=
  Utf8.not_mem_encode (by decide) h

/-! ## Headers -/

def nameLine (name : String) : Bytes :=
  Utf8.encode "Content-Disposition: form-data; name=\"" ++ (Utf8.encode name ++ quoteMark)

def fileNameTail (fileName : String) : Bytes :=
  Utf8.encode "; filename=\"" ++ (Utf8.encode fileName ++ quoteMark)

def typeLine (contentType : String) : Bytes :=
  Utf8.encode "Content-Type: " ++ Utf8.encode contentType

/-- The header lines of a part, without the empty line after them. -/
def header (p : Part) : Bytes :=
  match p.file with
  | none => nameLine p.name
  | some (fileName, contentType) =>
    nameLine p.name ++ fileNameTail fileName ++ (lineEnd ++ typeLine contentType)

/-- A quoted text ends at its closing quote. -/
theorem cut?_quoted {text : String} (h : '"' ∉ text.toList) (rest : Bytes) :
    Text.cut? quoteMark (Utf8.encode text ++ (quoteMark ++ rest)) =
      some (Utf8.encode text, rest) := by
  rw [quoteMark_eq]
  exact Text.cut?_of_not_mem (Utf8.not_mem_encode (by decide) h)

theorem readHeader_header {b : Boundary} {p : Part} (clear : Clear b p) :
    readHeader (header p) = some (p.name, p.file) := by
  obtain ⟨name, file, content⟩ := p
  have named := cut?_quoted clear.name.1
  cases file with
  | none =>
    have cut := named []
    rw [List.append_nil] at cut
    simp [readHeader, header, nameLine, cut]
  | some f =>
    obtain ⟨fileName, contentType⟩ := f
    have cut := cut?_quoted (clear.fileName _ rfl).1
    have typeMark : lineEnd ++ Utf8.encode "Content-Type: " = Utf8.encode "\r\nContent-Type: " := by
      decide
    have more : Utf8.encode "; filename=\"" ≠ [] := by decide
    have typed : Text.after? (Utf8.encode "\r\nContent-Type: ")
        (lineEnd ++ (Utf8.encode "Content-Type: " ++ Utf8.encode contentType)) =
          some (Utf8.encode contentType) := by
      rw [← List.append_assoc, typeMark, Text.after?_append]
    simp only [header, nameLine, fileNameTail, typeLine, List.append_assoc]
    simp [readHeader, named, cut, more, typed]

/-- The empty line ends the header: no line of it holds a carriage return and none is empty. -/
theorem cut?_header {b : Boundary} {p : Part} (clear : Clear b p) (rest : Bytes) :
    Text.cut? (lineEnd ++ lineEnd) (header p ++ (lineEnd ++ lineEnd ++ rest)) =
      some (header p, rest) := by
  obtain ⟨name, file, content⟩ := p
  have first : 13 ∉ nameLine name := by
    have plain := return_not_mem clear.name.2
    simp only [nameLine, List.mem_append, not_or]
    exact ⟨by decide, plain, by decide⟩
  rw [lineEnd_eq]
  cases file with
  | none => exact Text.cut?_of_not_mem first
  | some f =>
    obtain ⟨fileName, contentType⟩ := f
    have second : 13 ∉ nameLine name ++ fileNameTail fileName := by
      have plain := return_not_mem (clear.fileName _ rfl).2
      simp only [fileNameTail, List.mem_append, not_or]
      exact ⟨first, by decide, plain, by decide⟩
    have third : 13 ∉ 10 :: typeLine contentType := by
      have plain := return_not_mem (clear.contentType _ rfl)
      simp only [typeLine, List.mem_cons, List.mem_append, not_or]
      exact ⟨by decide, by decide, plain⟩
    -- The line end between the two lines is followed by a letter, so it is passed over.
    obtain ⟨line, letter⟩ : ∃ line, typeLine contentType = 67 :: line := ⟨_, rfl⟩
    have between : ¬ [13, 10, 13, 10] <+:
        13 :: (10 :: typeLine contentType ++ ([13, 10, 13, 10] ++ rest)) := by
      simp [letter, List.cons_prefix_cons]
    have lines : header ⟨name, some (fileName, contentType), content⟩ =
        nameLine name ++ fileNameTail fileName ++ 13 :: 10 :: typeLine contentType := by
      simp only [header, lineEnd_eq, List.cons_append, List.nil_append]
    have all : header ⟨name, some (fileName, contentType), content⟩ ++
        ([13, 10] ++ [13, 10] ++ rest) = nameLine name ++ fileNameTail fileName ++
          (13 :: (10 :: typeLine contentType ++ ([13, 10, 13, 10] ++ rest))) := by
      simp [lines]
    rw [all, Text.cut?]
    change Text.cutFrom [13, 10, 13, 10] [] _ = _
    rw [Text.cutFrom_skip second, Text.cutFrom_pass between, Text.cutFrom_skip third,
      Text.cutFrom_found]
    simp [lines]

/-! ## Framing -/

/-- A part from behind its delimiter up to the next. -/
def frame (p : Part) : Bytes :=
  lineEnd ++ (header p ++ (lineEnd ++ lineEnd ++ (p.content ++ lineEnd)))

/-- A body from behind its first delimiter on. -/
def framed (b : Boundary) : List Part → Bytes
  | [] => Utf8.encode "--"
  | p :: ps => frame p ++ (delimiter b ++ framed b ps)

/-- The content ends at the next delimiter line. The carriage return that opens this line comes
nowhere else in it, so the line is not found across the end of the content. -/
theorem cut?_content {b : Boundary} (plain : '\r' ∉ b.text.toList) {p : Part} (clear : Clear b p)
    (rest : Bytes) :
    Text.cut? (lineEnd ++ delimiter b) (p.content ++ (lineEnd ++ delimiter b ++ rest)) =
      some (p.content, rest) := by
  have once : 13 ∉ 10 :: delimiter b := by
    have boundary := return_not_mem plain
    simp only [delimiter, Utf8.encode_append, List.mem_cons, List.mem_append, not_or]
    exact ⟨by decide, by decide, boundary⟩
  have free : ¬ 13 :: 10 :: delimiter b <:+: p.content := by
    intro inside
    have tail : delimiter b <:+ 13 :: 10 :: delimiter b := ⟨[13, 10], rfl⟩
    exact clear.content (tail.isInfix.trans inside)
  rw [lineEnd_eq]
  exact Text.cut?_of_not_infix once free

/-- The reader takes one part with the delimiter behind it. -/
theorem readParts_frame {b : Boundary} (plain : '\r' ∉ b.text.toList) {p : Part}
    (clear : Clear b p) (bound : Nat) (done : List Part) (rest : Bytes) :
    readParts b (bound + 1) done (frame p ++ (delimiter b ++ rest)) =
      readParts b bound (p :: done) rest := by
  have more : frame p ++ (delimiter b ++ rest) ≠ Utf8.encode "--" := by
    intro h
    have head := congrArg List.head? h
    simp [frame, lineEnd_eq] at head
    exact absurd head (by decide)
  have opened : Text.after? lineEnd (frame p ++ (delimiter b ++ rest)) =
      some (header p ++ (lineEnd ++ lineEnd ++
        (p.content ++ (lineEnd ++ delimiter b ++ rest)))) := by
    simp only [frame, List.append_assoc, Text.after?_append]
  rw [readParts, if_neg more, opened]
  simp only [Option.bind_eq_bind, Option.bind_some, cut?_header clear, readHeader_header clear,
    cut?_content plain clear]

theorem readParts_framed {b : Boundary} (plain : '\r' ∉ b.text.toList) {ps : List Part}
    (clear : ∀ p ∈ ps, Clear b p) {bound : Nat} (enough : ps.length < bound) (done : List Part) :
    readParts b bound done (framed b ps) = some (done.reverse ++ ps) := by
  induction ps generalizing bound done with
  | nil =>
    cases bound with
    | zero => cases enough
    | succ bound => simp [readParts, framed]
  | cons p ps ih =>
    cases bound with
    | zero => cases enough
    | succ bound =>
      have tail := ih (fun q hq => clear q (List.mem_cons_of_mem _ hq))
        (Nat.lt_of_succ_lt_succ enough) (p :: done)
      rw [framed, readParts_frame plain (clear p List.mem_cons_self), tail]
      simp

theorem length_le_framed (b : Boundary) (ps : List Part) : ps.length ≤ (framed b ps).length := by
  induction ps with
  | nil => exact Nat.zero_le _
  | cons p ps ih =>
    simp only [framed, frame, lineEnd_eq, List.length_append, List.length_cons, List.length_nil]
    omega

theorem decode?_framed {b : Boundary} (plain : '\r' ∉ b.text.toList) {ps : List Part}
    (clear : ∀ p ∈ ps, Clear b p) : decode? b (delimiter b ++ framed b ps) = some ps := by
  have enough : ps.length < (delimiter b ++ framed b ps).length + 1 := by
    have := length_le_framed b ps
    rw [List.length_append]
    omega
  rw [decode?, Text.after?_append]
  exact readParts_framed plain clear enough []

/-! ## What is written -/

theorem encode_openPart (b : Boundary) (name : String) :
    Utf8.encode (openPart b name) = delimiter b ++ (lineEnd ++ nameLine name) := by
  have line : Utf8.encode "\r\nContent-Disposition: form-data; name=\"" =
      lineEnd ++ Utf8.encode "Content-Disposition: form-data; name=\"" := by decide
  simp only [openPart, Utf8.encode_append, line, delimiter, nameLine, quoteMark, List.append_assoc]

theorem blank_eq : Utf8.encode "\r\n\r\n" = lineEnd ++ lineEnd := by decide

theorem scalarPart_eq (b : Boundary) (name text : String) :
    scalarPart b name text = delimiter b ++ frame ⟨name, none, Utf8.encode text⟩ := by
  simp only [scalarPart, Utf8.encode_append, encode_openPart, blank_eq, frame, header, lineEnd,
    List.append_assoc]

theorem filePart_eq (b : Boundary) (name : String) (f : FilePart) :
    filePart b name f =
      delimiter b ++ frame ⟨name, some (f.fileName, f.contentType), f.bytes⟩ := by
  have line : Utf8.encode "\"\r\nContent-Type: " =
      quoteMark ++ (lineEnd ++ Utf8.encode "Content-Type: ") := by decide
  simp only [filePart, Utf8.encode_append, encode_openPart, blank_eq, line, frame, header,
    fileNameTail, typeLine, lineEnd, List.append_assoc]

/-- Handing over a leaf adds its part to those written. -/
theorem hand_part (b : Boundary) {l : KeyPath × Leaf} {p : Part} (h : partOf l = some p)
    (written : List Bytes) :
    (sink b).hand l written = ⟨[l], .ok (), (delimiter b ++ frame p) :: written⟩ := by
  obtain ⟨path, leaf⟩ := l
  cases leaf with
  | scalar text =>
    cases h
    rw [← scalarPart_eq]
    rfl
  | file f =>
    cases path with
    | nil =>
      cases h
      rw [← filePart_eq]
      rfl
    | cons s path =>
      cases h
      rw [← filePart_eq]
      rfl
  | unsupported typeName => cases h

theorem feed_parts (b : Boundary) {leaves : List (KeyPath × Leaf)}
    (supported : ∀ l ∈ leaves, (partOf l).isSome) (written : List Bytes) :
    (sink b).feed leaves written = ⟨leaves, .ok (),
      ((leaves.filterMap partOf).map fun p => delimiter b ++ frame p).reverse ++ written⟩ := by
  induction leaves generalizing written with
  | nil => rfl
  | cons l leaves ih =>
    obtain ⟨p, hp⟩ := Option.isSome_iff_exists.mp (supported l List.mem_cons_self)
    have tail := ih fun k hk => supported k (List.mem_cons_of_mem _ hk)
    simp [Sink.feed, hand_part b hp, Fed.followed, tail, hp]

theorem flatten_frames (b : Boundary) (ps : List Part) :
    (ps.map fun p => delimiter b ++ frame p).flatten ++ closing b = delimiter b ++ framed b ps := by
  induction ps with
  | nil => simp [closing, delimiter, framed]
  | cons p ps ih => simp [framed, ih]

theorem encode_framed {b : Boundary} {v : Value}
    (supported : ∀ l ∈ v.leaves, (partOf l).isSome) :
    encode b v = .ok (delimiter b ++ framed b (parts v)) := by
  rw [encode, Sink.walk_eq_feed, feed_parts b supported, ← flatten_frames]
  simp [parts]

/-- A document that can be framed is written, and a reader that knows the boundary alone finds its
leaves again: one part for each leaf, in order, with nothing left behind the last. Documents with
different parts are written differently. -/
theorem multipart_uniquely_decodable {b : Boundary} (plain : '\r' ∉ b.text.toList) {v : Value}
    (framable : Framable b v) :
    v.leaves.map partOf = (parts v).map some ∧
    (∃ body, encode b v = .ok body ∧ decode? b body = some (parts v)) ∧
    ∀ w, Framable b w → parts w ≠ parts v → encode b w ≠ encode b v := by
  refine ⟨map_eq_map_filterMap framable.supported, ?_, ?_⟩
  · exact ⟨_, encode_framed framable.supported, decode?_framed plain framable.clear⟩
  · intro w other differ same
    rw [encode_framed other.supported, encode_framed framable.supported, Except.ok.injEq] at same
    have read := congrArg (decode? b) same
    rw [decode?_framed plain other.clear, decode?_framed plain framable.clear,
      Option.some.injEq] at read
    exact differ read

/-- A file under an empty name keeps that name, and contents that come close to the delimiter, at
their start, their end and in between, come back whole. -/
theorem multipart_uniquely_decodable_near_delimiter :
    (∃ body, encode ⟨"B"⟩
        (.record [("", .file ⟨"f", "a.txt", "text/plain", [45, 66, 13, 10, 45, 45]⟩),
          ("note", .sequence [.scalar "\r\n--\r\n-", .null])]) = .ok body ∧
      decode? ⟨"B"⟩ body = some [⟨"", some ("a.txt", "text/plain"), [45, 66, 13, 10, 45, 45]⟩,
        ⟨"note[0]", none, [13, 10, 45, 45, 13, 10, 45]⟩, ⟨"note[1]", none, []⟩]) ∧
    encode ⟨"B"⟩ (.scalar "") ≠
      encode ⟨"B"⟩ (.record [("", .file ⟨"f", "a.txt", "text/plain", [45, 66, 13, 10, 45, 45]⟩),
        ("note", .sequence [.scalar "\r\n--\r\n-", .null])]) := by
  have framable : Framable ⟨"B"⟩
      (.record [("", .file ⟨"f", "a.txt", "text/plain", [45, 66, 13, 10, 45, 45]⟩),
        ("note", .sequence [.scalar "\r\n--\r\n-", .null])]) := ⟨by decide, by decide⟩
  obtain ⟨_, ⟨body, written, read⟩, apart⟩ := multipart_uniquely_decodable (by decide) framable
  exact ⟨⟨body, written, read⟩, apart _ ⟨by decide, by decide⟩ (by decide)⟩

end Courier.Multipart

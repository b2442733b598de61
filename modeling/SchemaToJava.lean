import SchemaToJava.Dictionary
import SchemaToJava.Floating.Binary64
import SchemaToJava.Floating.Layout
import SchemaToJava.Floating.Power
import SchemaToJava.Floating.Shortest
import SchemaToJava.Java.ClassQueue
import SchemaToJava.Java.ConfigClass
import SchemaToJava.Java.DefaultExpression
import SchemaToJava.Java.Doc
import SchemaToJava.Java.EnumClass
import SchemaToJava.Java.Field
import SchemaToJava.Java.FileSet
import SchemaToJava.Java.FunctionsClass
import SchemaToJava.Java.Generation
import SchemaToJava.Java.GenerationError
import SchemaToJava.Java.Identifier
import SchemaToJava.Java.Imports
import SchemaToJava.Java.InputClass
import SchemaToJava.Java.Library
import SchemaToJava.Java.Name
import SchemaToJava.Java.OutputClass
import SchemaToJava.Java.PackageOptions
import SchemaToJava.Java.ResourceClass
import SchemaToJava.Java.SourceFile
import SchemaToJava.Java.StringLiteral
import SchemaToJava.Java.TypeMapper
import SchemaToJava.Java.TypeShape
import SchemaToJava.Java.Utilities
import SchemaToJava.Json.Numeral
import SchemaToJava.Json.Token
import SchemaToJava.Json.Tree
import SchemaToJava.Json.Value
import SchemaToJava.Json.Writing
import SchemaToJava.Package.Basic
import SchemaToJava.Package.Binding
import SchemaToJava.Package.ResolvedType
import SchemaToJava.Proofs.AgreeingMappers
import SchemaToJava.Proofs.AllowedErrors
import SchemaToJava.Proofs.AlternativeTrees
import SchemaToJava.Proofs.BindingSteps
import SchemaToJava.Proofs.BoundPackages
import SchemaToJava.Proofs.BoundTypes
import SchemaToJava.Proofs.CamelNames
import SchemaToJava.Proofs.CaseGroups
import SchemaToJava.Proofs.CaseTokens
import SchemaToJava.Proofs.ClassBodies
import SchemaToJava.Proofs.ClassClosure
import SchemaToJava.Proofs.ClosedShapes
import SchemaToJava.Proofs.CodeUnits
import SchemaToJava.Proofs.CollapsedUnions
import SchemaToJava.Proofs.Constructors
import SchemaToJava.Proofs.Dictionaries
import SchemaToJava.Proofs.Discovery
import SchemaToJava.Proofs.DistinctMembers
import SchemaToJava.Proofs.DocComments
import SchemaToJava.Proofs.DocumentSections
import SchemaToJava.Proofs.DottedNames
import SchemaToJava.Proofs.Draining
import SchemaToJava.Proofs.Emissions
import SchemaToJava.Proofs.EmittedDescriptions
import SchemaToJava.Proofs.EmittedEnums
import SchemaToJava.Proofs.EmittedNames
import SchemaToJava.Proofs.Emitters
import SchemaToJava.Proofs.Endings
import SchemaToJava.Proofs.EnumDefaults
import SchemaToJava.Proofs.EnumIdentifiers
import SchemaToJava.Proofs.EnumLookup
import SchemaToJava.Proofs.ErasedDescriptions
import SchemaToJava.Proofs.FaithfulMerging
import SchemaToJava.Proofs.FieldMembers
import SchemaToJava.Proofs.FieldTypes
import SchemaToJava.Proofs.FileFronts
import SchemaToJava.Proofs.FilePaths
import SchemaToJava.Proofs.FileSets
import SchemaToJava.Proofs.FirstOccurrences
import SchemaToJava.Proofs.Frames
import SchemaToJava.Proofs.FunctionMethods
import SchemaToJava.Proofs.GeneratedFiles
import SchemaToJava.Proofs.ImportTable
import SchemaToJava.Proofs.InputClasses
import SchemaToJava.Proofs.InputFiles
import SchemaToJava.Proofs.InputTypes
import SchemaToJava.Proofs.IntegerLiterals
import SchemaToJava.Proofs.InternalErrors
import SchemaToJava.Proofs.KeptDocuments
import SchemaToJava.Proofs.KeptFields
import SchemaToJava.Proofs.KeptRecords
import SchemaToJava.Proofs.LanguageSettings
import SchemaToJava.Proofs.LegalIdentifiers
import SchemaToJava.Proofs.LegibleTexts
import SchemaToJava.Proofs.LiteralTokens
import SchemaToJava.Proofs.LoadedPackages
import SchemaToJava.Proofs.LoadingStages
import SchemaToJava.Proofs.LowerCase
import SchemaToJava.Proofs.MappedTypes
import SchemaToJava.Proofs.MappingErrors
import SchemaToJava.Proofs.MappingRules
import SchemaToJava.Proofs.MemberClasses
import SchemaToJava.Proofs.MergedDocuments
import SchemaToJava.Proofs.MergedRecords
import SchemaToJava.Proofs.NameCharacters
import SchemaToJava.Proofs.NormalTypes
import SchemaToJava.Proofs.Optionality
import SchemaToJava.Proofs.Outcomes
import SchemaToJava.Proofs.OutputClasses
import SchemaToJava.Proofs.OwnReferences
import SchemaToJava.Proofs.PlaceTrees
import SchemaToJava.Proofs.PlainTrees
import SchemaToJava.Proofs.PropertyIdentifiers
import SchemaToJava.Proofs.PropertyNames
import SchemaToJava.Proofs.QualifiedTypes
import SchemaToJava.Proofs.QueueHistories
import SchemaToJava.Proofs.Queues
import SchemaToJava.Proofs.ReadValues
import SchemaToJava.Proofs.RecursiveClasses
import SchemaToJava.Proofs.ReifiedTypes
import SchemaToJava.Proofs.RelatedRuns
import SchemaToJava.Proofs.RenamedTokens
import SchemaToJava.Proofs.ReorderedDocuments
import SchemaToJava.Proofs.ReorderedPackages
import SchemaToJava.Proofs.ReorderedReading
import SchemaToJava.Proofs.ReorderedRecords
import SchemaToJava.Proofs.ReorderedTrees
import SchemaToJava.Proofs.RepeatedClasses
import SchemaToJava.Proofs.RepeatedMerging
import SchemaToJava.Proofs.Representatives
import SchemaToJava.Proofs.Requests
import SchemaToJava.Proofs.RereadDocuments
import SchemaToJava.Proofs.ResourceOrder
import SchemaToJava.Proofs.Rewordings
import SchemaToJava.Proofs.ScopedReferences
import SchemaToJava.Proofs.SetterParameters
import SchemaToJava.Proofs.Setters
import SchemaToJava.Proofs.ShapeForm
import SchemaToJava.Proofs.ShapeLaws
import SchemaToJava.Proofs.ShapeParts
import SchemaToJava.Proofs.SortedValues
import SchemaToJava.Proofs.StableShapes
import SchemaToJava.Proofs.TypeNodes
import SchemaToJava.Proofs.TypeScopes
import SchemaToJava.Proofs.UncheckedNames
import SchemaToJava.Proofs.WholePackages
import SchemaToJava.Proofs.WrittenTokens
import SchemaToJava.Proofs.WrittenTrees
import SchemaToJava.Reading.Node
import SchemaToJava.Reading.OfValue
import SchemaToJava.Reading.Record
import SchemaToJava.Schema.CaseVariants
import SchemaToJava.Schema.Document
import SchemaToJava.Schema.Document.Reading
import SchemaToJava.Schema.Document.References
import SchemaToJava.Schema.Document.Writing
import SchemaToJava.Schema.Error
import SchemaToJava.Schema.Load
import SchemaToJava.Schema.Token
import SchemaToJava.Schema.Validation
import SchemaToJava.Text.Alphanumeric
import SchemaToJava.Text.Blank
import SchemaToJava.Text.Camel
import SchemaToJava.Text.Digit
import SchemaToJava.Text.LetterCase
import SchemaToJava.Text.Lines
import SchemaToJava.Text.Pieces
import SchemaToJava.Text.Width
import SchemaToJava.Yaml.Cursor
import SchemaToJava.Yaml.Scalar
import SchemaToJava.Yaml.Token
import SchemaToJava.Yaml.Token.Block
import SchemaToJava.Yaml.Token.Flow
import SchemaToJava.Yaml.Token.Tag
import SchemaToJava.Yaml.Tokens
import SchemaToJava.Yaml.Tree

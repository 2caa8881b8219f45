/-!
The tags, roles and attributes of Java syntax trees that declarations are recognised by.
-/

namespace SettingCatalog.Vocabulary

def fieldDeclaration : String := "FieldDeclaration"
def variableFragment : String := "VariableDeclarationFragment"
def parameterizedType : String := "ParameterizedType"
def simpleType : String := "SimpleType"
def simpleName : String := "SimpleName"
def qualifiedName : String := "QualifiedName"
def methodInvocation : String := "MethodInvocation"
def instanceCreation : String := "ClassInstanceCreation"
def numberLiteral : String := "NumberLiteral"
def booleanLiteral : String := "BooleanLiteral"

def typeArgumentsRole : String := "typeArguments"
def argumentsRole : String := "arguments"
def nameRole : String := "name"

def tokenAttribute : String := "token"

def booleanAttribute : String := "booleanValue"

def defaultSettingType : String := "Setting"
def defaultAnchor : String := "Property"
def defaultExtension : String := ".java"

end SettingCatalog.Vocabulary
